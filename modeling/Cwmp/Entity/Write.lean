import Cwmp.Entity.Basic

/-! # Writing parameters

A request is a list of names and texts. Every entry is judged by itself: its name must be new in
the request, known and writable, its text must read as a value that the parameter takes. The
accepted entries are stored together, and then, for a controller, the gates of what was written are
looked at in the resulting object, so that a mode may be switched in the same request. A request
with a fault changes nothing.
-/
namespace Cwmp

/-- Who is writing: the controller is bound by access and gates, the device is not. -/
inductive Origin
  | controller
  | device
deriving DecidableEq, Repr

abbrev Updates := List (String × String)

namespace Entity

variable {E : Type} [Entity E]

variable (E) in
/-- Judges an entry by itself, the names of earlier entries given. -/
def judge (origin : Origin) (earlier : List String) (name text : String) :
    Except ParameterFault (Field × Value) :=
  if name ∈ earlier then
    .error ⟨name, .invalidArguments, "parameter appears more than once in the request"⟩
  else match field? E name with
    | none => .error ⟨name, .invalidParameterName, "no such parameter on " ++ pathText E⟩
    | some f =>
      if origin = .controller ∧ f.access = .readOnly then
        .error ⟨name, .nonWritableParameter, "parameter is read-only"⟩
      else match f.shape.kind.read text with
        | .error fault => .error ⟨name, .invalidParameterType, fault.message⟩
        | .ok v =>
          match f.shape.kind.check f.name v with
          | .error fault => .error fault
          | .ok () =>
            match f.shape.store v with
            | .error fault => .error ⟨name, .invalidParameterValue, fault.message⟩
            | .ok _ => .ok (f, v)

variable (E) in
/-- The verdicts on all entries of a request, after entries with the names `earlier`. -/
def verdicts (origin : Origin) : (earlier : List String) → Updates →
    List (Except ParameterFault (Field × Value))
  | _, [] => []
  | earlier, (name, text) :: updates =>
    judge E origin earlier name text :: verdicts origin (name :: earlier) updates

/-- The fault of a written parameter one of whose gates is closed. -/
def gateFault? (e : E) (f : Field) : Option ParameterFault :=
  (f.gates.find? fun g => !isOpen e g).map fun g =>
    ⟨f.name, .nonWritableParameter, "writable only when " ++ g.text⟩

/-- The fault of an entry that was refused by itself. -/
def refusal? : Except ParameterFault (Field × Value) → Option ParameterFault
  | .error fault => some fault
  | .ok _ => none

/-- The fault of an accepted entry whose gates are closed to the writer. -/
def shut? (origin : Origin) (written : E) :
    Except ParameterFault (Field × Value) → Option ParameterFault
  | .error _ => none
  | .ok (f, _) =>
    match origin with
    | .controller => gateFault? written f
    | .device => none

/-- The object with all accepted values. -/
def stored (judged : List (Except ParameterFault (Field × Value))) (e : E) : E :=
  (judged.filterMap Except.toOption).foldl (fun e (f, v) => assign e f.name v) e

/-- The object after a request, or the faults of the request. -/
def write (origin : Origin) (updates : Updates) (e : E) : Except SetFault E :=
  let judged := verdicts E origin [] updates
  let written := stored judged e
  let faults := judged.filterMap refusal? ++ judged.filterMap (shut? origin written)
  if faults = [] then .ok written else .error { faults := faults }

/-- Writes parameters in place: what became of the request, and the object as it stands after it. -/
def request (origin : Origin) (updates : Updates) (e : E) : Except SetFault Unit × E :=
  match write origin updates e with
  | .ok written => (.ok (), written)
  | .error fault => (.error fault, e)

/-- The object with these texts of parameters and everything else as created. -/
def ofTexts (texts : Updates) : Except SetFault E :=
  write .device texts initial

end Entity
end Cwmp
