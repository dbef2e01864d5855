import Stackwise.Builtin.Iterate
import Stackwise.Builtin.Number
import Stackwise.Format.Layout
import Stackwise.Text.Encoding

/-!
# Functions on texts

Characters and their numbers, texts and byte strings from other values, layouts, printing, and
reading lines.
-/
namespace Stackwise.Builtin

/-- The class of an argument in messages about texts. -/
def argumentName (v : Value) : String :=
  match v with
  | .none => "None"
  | v => v.tyName

def chr (v : Value) : Except Fault Value := do
  let n ← needInt v
  if n < -Int.pow 2 31 || Int.pow 2 31 ≤ n then throw (.overflow .charCode)
  if n < 0 || 0x110000 ≤ n then throw (.call .codePoint)
  return .str (String.singleton (Char.ofNat n.toNat))

def ord (v : Value) : Except Fault Value :=
  match v with
  | .str s =>
    match s.toList with
    | [c] => .ok (.int c.toNat)
    | cs => .error (.call (.characterLength cs.length))
  | .bytes [b] => .ok (.int b.toNat)
  | .bytes bs => .error (.call (.characterLength bs.length))
  | v => .error (.call (.wantsCharacter v.tyName))

def ascii (v : Value) : Except Fault Value := do return .str (Text.escapeWide (← v.repr))

/-- A value under a layout that is given as a value. -/
def format (v spec : Value) : Except Fault Value :=
  match spec with
  | .str s => (Format.layout v s).map .str
  | spec => .error (.call (.layoutKind (argumentName spec)))

/-- An argument that has to be a text. -/
def needText (function name : String) (v : Value) : Except Fault String :=
  match v with
  | .str s => .ok s
  | v => .error (.call (.textArgument function name (argumentName v)))

/-- An encoding by name. -/
def needEncoding (s : String) : Except Fault Text.Encoding :=
  match Text.Encoding.ofName? s with
  | some e => .ok e
  | none => .error (.call (.unknownEncoding s))

/-- The encoding and the handler in the arguments of a conversion. -/
def encodingArguments (function : String) (encoding : Value) (handler : Option Value) :
    Except Fault (String × Text.Handler) := do
  let e ← needText function "encoding" encoding
  match handler with
  | none => return (e, .strict)
  | some h => return (e, .ofName (← needText function "errors" h))

/-- The text of a byte string in an encoding. -/
def decoded (v encoding : Value) (handler : Option Value) : Except Fault Value := do
  let (name, h) ← encodingArguments "str" encoding handler
  match v with
  | .bytes [] => return .str ""
  | .bytes bs => return .str (← Text.decode (← needEncoding name) h bs)
  | .str _ => throw (.call .decodedText)
  | v => throw (.call (.decodedKind v.tyName))

/-- The byte string of a text in an encoding. -/
def encoded (v encoding : Value) (handler : Option Value) : Except Fault Value := do
  let (name, h) ← encodingArguments "bytes" encoding handler
  match v with
  | .str s => return .bytes (← Text.encode (← needEncoding name) h s)
  | _ => throw (.call .encodingWithoutText)

/-- A byte from an item. -/
def needByte (v : Value) : Except Fault UInt8 := do
  let n ← needInt v
  if n < 0 || 256 ≤ n then throw .byteRange
  return UInt8.ofNat n.toNat

/-- A byte string from a count of zeros, a byte string, or numbers. -/
def toBytes (r : Reach) (v : Value) : Act Value :=
  match v with
  | .str _ => throw (.call .textNeedsEncoding)
  | .bytes b => return .bytes b
  | v =>
    match v.asInt? with
    | some n =>
      if maxIndex < n || n < -maxIndex - 1 then throw (.overflow .indexSize)
      else if n < 0 then throw (.call .negativeCount)
      else if maxItems < n.toNat then throw .outOfMemory
      else return .bytes (List.replicate n.toNat 0)
    | none =>
      match v with
      | .list _ | .tuple _ | .set _ | .frozenset _ | .dict _ | .range _ _ _ | .iterator _ _ => do
        let acc ← foldItems r v #[] fun (acc : Array UInt8) x => do
          return (acc.push (← Act.ofExcept (needByte x)), true)
        return .bytes acc.toList
      | v => throw (.call (.bytesFrom v.tyName))

/-- Print values with blanks between them. What stands before a value that has no text is printed.
-/
def printItems : List Value → Act Unit
  | [] => Act.write "\n"
  | [v] => do
    Act.write (← Act.ofExcept v.text)
    Act.write "\n"
  | v :: vs => do
    Act.write (← Act.ofExcept v.text)
    Act.write " "
    printItems vs

/-- Read a line, after a prompt if there is one. -/
def input (prompt : Option Value) : Act Value := do
  if let some v := prompt then
    Act.write (← Act.ofExcept v.text)
  return .str (← Act.readLine)

end Stackwise.Builtin
