import Cwmp.Proofs.Json.Tokens

/-! # JSON that was written

The layout in lines is read back as the tree that was written, if the notation can hold the tree.
-/
namespace Cwmp.Json

open Text

mutual

/-- The notation can hold the tree: it has no alternatives and no scalars whose type is open, and
its numbers have at most 64 bits. -/
def Holds : Doc → Prop
  | .null | .boolean _ | .text _ => True
  | .integer i => int64Min ≤ i ∧ i ≤ uint64Max
  | .list items => HoldsItems items
  | .table members => HoldsMembers members
  | .plain _ | .foreign | .variant .. | .broken => False

def HoldsItems : List Doc → Prop
  | [] => True
  | item :: items => Holds item ∧ HoldsItems items

/-- No name of a member looks like the number of a row. -/
def HoldsMembers : List (Key × Doc) → Prop
  | [] => True
  | (key, value) :: members => keyOf key.text = key ∧ Holds value ∧ HoldsMembers members

end

theorem holdsMembers_iff {members : List (Key × Doc)} :
    HoldsMembers members ↔ ∀ key value, (key, value) ∈ members →
      keyOf key.text = key ∧ Holds value := by
  induction members with
  | nil => simp [HoldsMembers]
  | cons member members ih =>
    obtain ⟨key, value⟩ := member
    rw [HoldsMembers, ih]
    constructor
    · rintro ⟨hkey, hvalue, hmembers⟩ other content hmem
      rcases List.mem_cons.1 hmem with heq | hmem
      · cases heq
        exact ⟨hkey, hvalue⟩
      · exact hmembers other content hmem
    · intro h
      obtain ⟨hkey, hvalue⟩ := h key value List.mem_cons_self
      exact ⟨hkey, hvalue, fun other content hmem => h other content (List.mem_cons_of_mem _ hmem)⟩

@[simp] theorem keyOf_decimal (n : Nat) : keyOf (decimal n) = .index n := by
  simp [keyOf]

def resume (progress : Progress) (rest : List Token) : Doc × List Token :=
  match progress with
  | .going expecting stack => build rest expecting stack
  | .finished d => (d, rest)

theorem build_cons (token : Token) (rest : List Token) (expecting : Expecting)
    (stack : List Open) :
    build (token :: rest) expecting stack = resume (advance expecting token stack) rest := by
  rw [build]
  cases advance expecting token stack <;> rfl

@[simp] theorem resume_going (expecting : Expecting) (stack : List Open) (rest : List Token) :
    resume (.going expecting stack) rest = build rest expecting stack :=
  rfl

@[simp] theorem deliver_list (d : Doc) (done : List Doc) (stack : List Open) :
    deliver d (.list done :: stack) = .going .itemEnd (.list (d :: done) :: stack) :=
  rfl

@[simp] theorem deliver_member (d : Doc) (done : List (Key × Doc)) (key : Key)
    (stack : List Open) :
    deliver d (.member done key :: stack) =
      .going .memberEnd (.table ((key, d) :: done) :: stack) :=
  rfl

inductive Expecting.Value : Expecting → Prop
  | value : Value .value
  | valueOrEnd : Value .valueOrEnd

theorem ends_lineStart (level : Nat) (rest : List Char) :
    Ends ((lineStart level).toList ++ rest) := by
  intro c hc
  cases (Option.some.inj (by simpa [lineStart] using hc) : '\n' = c)
  rfl

theorem build_scalar {d : Doc} {expecting : Expecting} (h : expecting.Value) (rest : List Token)
    (stack : List Open) :
    build (.scalar d :: rest) expecting stack = resume (deliver d stack) rest := by
  rw [build_cons]
  cases h <;> rfl

theorem toList_joinWith (separator item : String) (items : List String) :
    (joinWith separator (item :: items)).toList =
      item.toList ++ items.flatMap fun part => separator.toList ++ part.toList := by
  induction items generalizing item with
  | nil => simp [joinWith]
  | cons next items ih => simp [joinWith, ih]

def others (level : Nat) (parts : List String) : List Char :=
  parts.flatMap fun part => ',' :: (lineStart level).toList ++ part.toList

@[simp] theorem others_nil (level : Nat) : others level [] = [] :=
  rfl

@[simp] theorem others_cons (level : Nat) (part : String) (parts : List String) :
    others level (part :: parts) =
      ',' :: ((lineStart level).toList ++ (part.toList ++ others level parts)) := by
  simp [others]

theorem toList_block_cons (first last : String) (level : Nat) (part : String)
    (parts : List String) : (block first last level (part :: parts)).toList =
      first.toList ++ ((lineStart (level + 1)).toList ++ (part.toList ++
        (others (level + 1) parts ++ ((lineStart level).toList ++ last.toList)))) := by
  simp [block, toList_joinWith, others]

theorem ends_others (level outer : Nat) (parts : List String) (rest : List Char) :
    Ends (others level parts ++ ((lineStart outer).toList ++ rest)) := by
  cases parts with
  | nil => exact ends_lineStart outer rest
  | cons part parts =>
    intro c hc
    cases hc
    rfl

mutual

/-- What was written for a value is read as the value. -/
theorem build_prettyAt : ∀ {d : Doc}, Holds d → ∀ (level : Nat) {rest : List Char}, Ends rest →
    ∀ {expecting : Expecting}, expecting.Value → ∀ stack : List Open,
      build (tokens ((prettyAt level d).toList ++ rest)) expecting stack =
        resume (deliver d stack) (tokens rest)
  | .null, _, _, _, _, _, hexpecting, _ => by
    simp [prettyAt, scalarText, build_scalar hexpecting]
  | .boolean true, _, _, _, _, _, hexpecting, _ => by
    simp [prettyAt, scalarText, build_scalar hexpecting]
  | .boolean false, _, _, _, _, _, hexpecting, _ => by
    simp [prettyAt, scalarText, build_scalar hexpecting]
  | .integer _, h, _, _, hrest, _, hexpecting, _ => by
    simp only [prettyAt, scalarText]
    rw [tokens_decimalInt h.1 h.2 hrest, build_scalar hexpecting]
  | .text _, _, _, _, _, _, hexpecting, _ => by
    simp only [prettyAt, scalarText, tokens_quote, build_cons]
    cases hexpecting <;> rfl
  | .list [], _, _, _, _, _, hexpecting, _ => by
    simp only [prettyAt, prettyItems, block, if_true]
    cases hexpecting <;> simp [build_cons, advance, startValue, closeInner, Open.finish]
  | .list (item :: items), h, level, rest, _, _, hexpecting, stack => by
    have hitem := build_prettyAt h.1 (level + 1)
      (ends_others (level + 1) level (prettyItems (level + 1) items) (']' :: rest))
      .valueOrEnd (.list [] :: stack)
    have hitems := build_items h.2 (level + 1) level rest [item] stack
    simp only [prettyAt, prettyItems, toList_block_cons, List.append_assoc]
    cases hexpecting <;>
      simpa [build_cons, advance, startValue, hitem] using hitems
  | .table [], _, _, _, _, _, hexpecting, _ => by
    simp only [prettyAt, prettyMembers, block, if_true]
    cases hexpecting <;> simp [build_cons, advance, startValue, closeInner, Open.finish]
  | .table ((key, value) :: members), h, level, rest, _, _, hexpecting, stack => by
    have hvalue := build_prettyAt h.2.1 (level + 1)
      (ends_others (level + 1) level (prettyMembers (level + 1) members) ('\x7d' :: rest))
      .value (.member [] key :: stack)
    have hmembers := build_members h.2.2 (level + 1) level rest [(key, value)] stack
    simp only [prettyAt, prettyMembers, toList_block_cons, List.append_assoc]
    cases hexpecting <;>
      simpa [build_cons, advance, startValue, readKey, h.1, hvalue] using hmembers

theorem build_items : ∀ {items : List Doc}, HoldsItems items → ∀ (level outer : Nat)
    (rest : List Char) (done : List Doc) (stack : List Open),
      build (tokens (others level (prettyItems level items) ++
        ((lineStart outer).toList ++ ']' :: rest))) .itemEnd (.list done :: stack) =
          resume (deliver (.list (done.reverse ++ items)) stack) (tokens rest)
  | [], _, _, _, _, _, _ => by
    simp [prettyItems, build_cons, advance, closeInner, Open.finish]
  | item :: items, h, level, outer, rest, done, stack => by
    have hitem := build_prettyAt h.1 level
      (ends_others level outer (prettyItems level items) (']' :: rest)) .value
      (.list done :: stack)
    have hitems := build_items h.2 level outer rest (item :: done) stack
    simpa [prettyItems, build_cons, advance, hitem] using hitems

theorem build_members : ∀ {members : List (Key × Doc)}, HoldsMembers members →
    ∀ (level outer : Nat) (rest : List Char) (done : List (Key × Doc)) (stack : List Open),
      build (tokens (others level (prettyMembers level members) ++
        ((lineStart outer).toList ++ '\x7d' :: rest))) .memberEnd (.table done :: stack) =
          resume (deliver (.table (done.reverse ++ members)) stack) (tokens rest)
  | [], _, _, _, _, _, _ => by
    simp [prettyMembers, build_cons, advance, closeInner, Open.finish]
  | (key, value) :: members, h, level, outer, rest, done, stack => by
    have hvalue := build_prettyAt h.2.1 level
      (ends_others level outer (prettyMembers level members) ('\x7d' :: rest)) .value
      (.member done key :: stack)
    have hmembers := build_members h.2.2 level outer rest ((key, value) :: done) stack
    simpa [prettyMembers, build_cons, advance, readKey, h.1, hvalue] using hmembers

end

theorem read_pretty {d : Doc} (h : Holds d) : read (pretty d ++ "\n") = (d, true) := by
  have hends : Ends ['\n'] := by
    rintro c ⟨⟩
    rfl
  have hbuild := build_prettyAt h 0 hends .value []
  have hbreak : ("\n" : String).toList = ['\n'] := rfl
  rw [read, String.toList_append, hbreak, pretty, hbuild]
  simp [deliver, resume]

theorem load_pretty {A : Type} [Codec A] {d : Doc} (h : Holds d) :
    (load (pretty d ++ "\n") : Except LoadFault A) = Codec.decode d := by
  rw [load, read_pretty h]
  dsimp only
  split
  next a ha => rw [ha]; rfl
  next fault hfault => rw [hfault]

end Cwmp.Json
