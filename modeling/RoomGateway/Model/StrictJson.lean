import RoomGateway.Model.Protocol

/-!
Strict parsing of a request body (`parse_strict_json` in
`conversation_service.rs`). The tokenizer of `serde_json` is given: it turns
bytes into a tree in which the keys and texts are decoded and an object is the
list of its pairs as written. Over the tree there are two readers: the visitor
of `StrictValue`, and the one by which `serde_json` reads a `Value`.
-/

namespace RoomGateway

/-! ### Numbers -/

/-- A number as it is written. -/
structure NumberLiteral where
  negative : Bool
  /-- The value of the digits before the point. -/
  whole : Nat
  fraction : Option (List Char)
  exponent : Option Int
  deriving DecidableEq, Repr

/-- What `serde_json` takes a number for. -/
inductive ParserNumber where
  | f64 (literal : NumberLiteral)
  | u64 (n : Nat)
  | i64 (n : Int)
  deriving DecidableEq, Repr

/-- Without a fraction and an exponent, what fits into 64 bits is an integer. The
digits of a negative number are negated as an `i64` with wraparound, and are a
float if that is no negative number: zero and what is below `i64::MIN`. -/
def NumberLiteral.classify (literal : NumberLiteral) : ParserNumber :=
  if literal.fraction.isSome || literal.exponent.isSome || 2 ^ 64 ≤ literal.whole then .f64 literal
  else if !literal.negative then .u64 literal.whole
  else
    let negated := (-(BitVec.ofNat 64 literal.whole)).toInt
    if 0 ≤ negated then .f64 literal else .i64 negated

/-! ### Trees -/

/-- A document as the tokenizer hands it over. -/
inductive Token where
  | null
  | bool (value : Bool)
  | number (literal : NumberLiteral)
  | text (value : String)
  | seq (items : List Token)
  | map (entries : List (String × Token))

variable (floatText : NumberLiteral → String)

mutual

/-- `Value::deserialize`. `floatText` is the text of the float that a literal
is read as. -/
def Token.value : Token → Json
  | .null => .null
  | .bool b => .bool b
  | .number literal =>
      match literal.classify with
      | .f64 literal => .num (.float (floatText literal))
      | .u64 n => .num (.int n)
      | .i64 n => .num (.int n)
  | .text s => .str s
  | .seq items => .arr (Token.visitValues items [])
  | .map entries => .obj (Token.visitEntries entries [])

def Token.visitValues : List Token → List Json → List Json
  | [], values => values
  | item :: items, values => Token.visitValues items (values ++ [Token.value item])

/-- An entry replaces an earlier one of its key. -/
def Token.visitEntries : List (String × Token) → List (String × Json) → List (String × Json)
  | [], values => values
  | (key, token) :: entries, values =>
      Token.visitEntries entries (Json.setField values key (Token.value token))

end

mutual

/-- `StrictValue::deserialize`. -/
def Token.strictValue : Token → Except String Json
  | .null => .ok .null
  | .bool b => .ok (.bool b)
  | .number literal =>
      match literal.classify with
      | .f64 _ => .error "non-integer JSON number"
      | .u64 n => .ok (.num (.int n))
      | .i64 n => .ok (.num (.int n))
  | .text s => .ok (.str s)
  | .seq items => (Token.visitSeq items []).map .arr
  | .map entries => (Token.visitMap entries []).map .obj

def Token.visitSeq : List Token → List Json → Except String (List Json)
  | [], values => .ok values
  | item :: items, values => do
      let value ← Token.strictValue item
      Token.visitSeq items (values ++ [value])

def Token.visitMap : List (String × Token) → List (String × Json) →
    Except String (List (String × Json))
  | [], values => .ok values
  | (key, token) :: entries, values =>
      if (Json.lookup values key).isSome then .error "duplicate JSON key"
      else do
        let value ← Token.strictValue token
        Token.visitMap entries (Json.setField values key value)

end

/-! ### Parsers -/

/-- The tokenizer: no tree where the bytes are not one JSON document. -/
abbrev Tokenizer := List UInt8 → Option Token

/-- `serde_json::from_slice::<Value>`. -/
def parseJson (tokenize : Tokenizer) (bytes : List UInt8) : Option Json :=
  (tokenize bytes).map (Token.value floatText)

def parseStrictJson (tokenize : Tokenizer) (bytes : List UInt8) : Except ConversationError Json :=
  match tokenize bytes with
  | none => .error .invalidTaskInput
  | some tree => tree.strictValue.mapError fun _ => ConversationError.invalidTaskInput

end RoomGateway
