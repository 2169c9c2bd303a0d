import DocumentCodec.Pool.Lock
import DocumentCodec.Pool.Rounds
import DocumentCodec.Proofs.Bson.Enclosure
import DocumentCodec.Proofs.Bson.Interchange
import DocumentCodec.Proofs.Bytes.Exchange
import DocumentCodec.Proofs.Codec.Accounting
import DocumentCodec.Proofs.Codec.Appending
import DocumentCodec.Proofs.Codec.Delimiting
import DocumentCodec.Proofs.Codec.Diagnosis
import DocumentCodec.Proofs.Codec.Footprint
import DocumentCodec.Proofs.Codec.History
import DocumentCodec.Proofs.Codec.Redeclaration
import DocumentCodec.Proofs.Codec.Reencoding
import DocumentCodec.Proofs.Codec.Sending
import DocumentCodec.Proofs.Codec.Streaming
import DocumentCodec.Proofs.Codec.Writing
import DocumentCodec.Proofs.Pool.Hoarding
import DocumentCodec.Proofs.Text.Numerals
import DocumentCodec.Proofs.Value.Equivalence
