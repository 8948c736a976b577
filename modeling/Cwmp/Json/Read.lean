import Cwmp.Json.Token

/-! # Reading JSON

The tree of a sequence of tokens is built with a stack of the lists and tables that are still open.
Where a token does not fit, all of them are closed around a `broken` value. What is left after the
first value is returned along with it, since a reader of the tree finds its faults before anybody
notices that something follows.
-/
namespace Cwmp.Json

open Text

/-- The key for the text of a member's name: decimal digits without a leading zero are a row
number. -/
def keyOf (s : String) : Key :=
  match digits? s.toList with
  | some n => if decimal n = s then .index n else .name s
  | none => .name s

/-- A list or table that is not complete, its parts last first. -/
inductive Open
  | list (done : List Doc)
  | table (done : List (Key × Doc))
  /-- A table that waits for the value of a member. -/
  | member (done : List (Key × Doc)) (key : Key)

/-- What may come next. -/
inductive Expecting
  | value
  | valueOrEnd
  | itemEnd
  | keyOrEnd
  | key
  | colon
  | memberEnd

/-- The value of an open part into which a last value is put. -/
def Open.close (d : Doc) : Open → Doc
  | list done => .list (done.reverse ++ [d])
  | table done => .table (done.reverse ++ [(.name "", d)])
  | member done key => .table (done.reverse ++ [(key, d)])

/-- The tree of a text that cannot be read any further. -/
def abandon (stack : List Open) : Doc :=
  stack.foldl (fun d part => part.close d) .broken

/-- An open part after one more value, and what may follow; nothing if it takes none now. -/
def Open.take? (d : Doc) : Open → Option (Open × Expecting)
  | list done => some (.list (d :: done), .itemEnd)
  | member done key => some (.table ((key, d) :: done), .memberEnd)
  | table _ => none

/-- The innermost open part, when its closing bracket has come. -/
def Open.finish : Open → Doc
  | list done => .list done.reverse
  | table done | member done _ => .table done.reverse

/-- The state after a token: what may come next in which open parts, or a value and the end. -/
inductive Progress
  | going (expecting : Expecting) (stack : List Open)
  | finished (d : Doc)

/-- Puts a value into the innermost open part. -/
def deliver (d : Doc) : List Open → Progress
  | [] => .finished d
  | part :: stack =>
    match part.take? d with
    | some (part, expecting) => .going expecting (part :: stack)
    | none => .finished (abandon (part :: stack))

/-- Closes the innermost open part. -/
def closeInner : List Open → Progress
  | part :: stack => deliver part.finish stack
  | [] => .finished .broken

/-- A token where a value begins. -/
def startValue (token : Token) (stack : List Open) : Progress :=
  match token with
  | .scalar d => deliver d stack
  | .text s => deliver (s.elim .foreign .text) stack
  | .openList => .going .valueOrEnd (.list [] :: stack)
  | .openTable => .going .keyOrEnd (.table [] :: stack)
  | _ => .finished (abandon stack)

/-- A token where the name of a member stands. -/
def readKey (token : Token) (stack : List Open) : Progress :=
  match token, stack with
  | .text (some s), .table done :: stack => .going .colon (.member done (keyOf s) :: stack)
  | _, _ => .finished (abandon stack)

def advance (expecting : Expecting) (token : Token) (stack : List Open) : Progress :=
  match expecting, token with
  | .valueOrEnd, .closeList | .itemEnd, .closeList => closeInner stack
  | .keyOrEnd, .closeTable | .memberEnd, .closeTable => closeInner stack
  | .value, _ | .valueOrEnd, _ => startValue token stack
  | .keyOrEnd, _ | .key, _ => readKey token stack
  | .colon, .colon => .going .value stack
  | .itemEnd, .comma => .going .value stack
  | .memberEnd, .comma => .going .key stack
  | _, _ => .finished (abandon stack)

/-- Builds the first value of a sequence of tokens. -/
def build : List Token → Expecting → List Open → Doc × List Token
  | [], _, stack => (abandon stack, [])
  | token :: rest, expecting, stack =>
    match advance expecting token stack with
    | .going expecting stack => build rest expecting stack
    | .finished d => (d, rest)

/-- The tree of a text, and whether nothing follows it. -/
def read (s : String) : Doc × Bool :=
  let (d, rest) := build (tokens s.toList) .value []
  (d, rest.isEmpty)

def load {A : Type} [Codec A] (s : String) : Except LoadFault A :=
  let (d, ended) := read s
  match Codec.decode d with
  | .ok a => if ended then .ok a else .error .malformed
  | .error fault => .error fault

end Cwmp.Json
