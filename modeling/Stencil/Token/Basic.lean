import Stencil.Text.Folding

/-!
# Tokens

A token is a marker, a name and the call that follows the name. It holds what its source
spells, so `source` gives the text back and every length is computed from it:

    &NAME|p1|p2|        a pipe call; each parameter ends in a `|`
    &NAME(p1,p2)        a parenthesised call
    &<|ABC|payload      a directive, whose payload is the rest of the text

Inside a pipe parameter and the guard of a directive a literal `|` is written `\|`.
-/

namespace Stencil

/-- Whether a character opens a token. -/
def isMarker (c : Char) : Bool := c == '$' || c == '&'

/-- Whether a character belongs to a name. -/
def isNameChar (c : Char) : Bool := c.isAlphanum || c == '_' || c == '-'

/-- Whether a character is the name of a directive. -/
def isDirectiveName (c : Char) : Bool := c == '<' || c == '!'

/-- A text with every `|` written `\|`. -/
def escape (cs : List Char) : List Char :=
  cs.flatMap fun c => if c = '|' then ['\\', '|'] else [c]

/-- How a token calls its trigger. -/
inductive Call where
  /-- `|p1|p2|`, with the parameters unescaped. -/
  | pipe (params : List (List Char))
  /-- `(inner)`, and whether a `|` stands directly behind. -/
  | paren (inner : List Char) (closed : Bool)
  /-- `|guard|payload`, with the guard unescaped. -/
  | directive (guard payload : List Char)
deriving DecidableEq, Repr

/-- A macro reference as it stands in a text. -/
structure Token where
  marker : Char
  /-- The name as spelled. -/
  spelled : List Char
  call : Call
deriving DecidableEq, Repr

namespace Token

/-- A parameter of a pipe call with its terminator. -/
def segment (param : List Char) : List Char := escape param ++ ['|']

/-- The name under which the trigger is looked up. -/
def name (t : Token) : String := Text.upper (String.ofList t.spelled)

/-- Marker, name and what terminates the name; a parenthesised call belongs to it whole, of a
directive the guard. -/
def head (t : Token) : List Char :=
  t.marker :: t.spelled ++
    match t.call with
    | .pipe _ => ['|']
    | .paren inner closed => '(' :: inner ++ ')' :: (if closed then ['|'] else [])
    | .directive guard _ => '|' :: segment guard

/-- The texts of the parameters behind the head, terminators included. -/
def tail (t : Token) : List (List Char) :=
  match t.call with
  | .pipe ps => ps.map segment
  | .paren _ _ => []
  | .directive _ payload => [payload]

/-- The text of the whole token. -/
def source (t : Token) : List Char := t.head ++ t.tail.flatten

/-- The parameters of a parenthesised call: none when the text is blank, else what the commas
separate, trimmed. -/
def parenParams (inner : List Char) : List (List Char) :=
  if inner.all Text.isBlank then [] else (inner.splitOn ',').map Text.dropBlanks

/-- All parameters. -/
def params (t : Token) : List String :=
  match t.call with
  | .pipe ps => ps.map String.ofList
  | .paren inner _ => (parenParams inner).map String.ofList
  | .directive guard payload => [String.ofList guard, String.ofList payload]

/-- Whether the token is a directive. -/
def isDirective (t : Token) : Bool :=
  match t.call with
  | .directive .. => true
  | _ => false

/-! ## What a trigger consumes

A trigger that takes at most `m` parameters leaves the further ones of a pipe call in the text.
The other two kinds of call are consumed whole.
-/

/-- The number of parameters of a pipe call that a trigger with the bound `max` takes. -/
def takes (max : Option Nat) (count : Nat) : Nat :=
  match max with
  | some m => min m count
  | none => count

/-- The parameters handed to a trigger with the bound `max`. -/
def paramsUpTo (t : Token) (max : Option Nat) : List String :=
  match t.call with
  | .pipe ps => t.params.take (takes max ps.length)
  | _ => t.params

/-- The text that a trigger with the bound `max` replaces. -/
def sourceUpTo (t : Token) (max : Option Nat) : List Char :=
  match t.call with
  | .pipe ps => t.head ++ (t.tail.take (takes max ps.length)).flatten
  | _ => t.source

/-- The text that a trigger with the bound `max` leaves behind its own. -/
def sourceBeyond (t : Token) (max : Option Nat) : List Char :=
  match t.call with
  | .pipe ps => (t.tail.drop (takes max ps.length)).flatten
  | _ => []

theorem sourceUpTo_append_sourceBeyond (t : Token) (max : Option Nat) :
    t.sourceUpTo max ++ t.sourceBeyond max = t.source := by
  unfold sourceUpTo sourceBeyond
  split <;> simp only [source, List.append_assoc, List.append_nil]
  rw [← List.flatten_append, List.take_append_drop]

end Token

end Stencil
