namespace DocumentCodec

/-!
# Wire formats

The two formats a document can be written in.
-/

/-- A wire format. -/
inductive Format
  | bson
  | messagePack
  deriving Repr, DecidableEq

namespace Format

/-- The short name of a format. -/
def name : Format → String
  | bson => "bson"
  | messagePack => "msgpack"

/-- The full name of a format. -/
def title : Format → String
  | bson => "BSON"
  | messagePack => "MessagePack"

/-- Every format. -/
def all : List Format :=
  [bson, messagePack]

/-- The format of a short name. -/
def ofName? (name : String) : Option Format :=
  all.find? fun format => format.name == name

end Format

end DocumentCodec
