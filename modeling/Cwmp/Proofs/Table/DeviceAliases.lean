import Cwmp.Proofs.Table.FieldFaults
import Cwmp.Proofs.Table.Violations
import Cwmp.Proofs.Text.Decimal
import Cwmp.ObjectKind
import Cwmp.Settings.Basic

/-! # Aliases that the device gives

A row that is created with an empty alias gets the first of the device's aliases that no row has.
The settings are checked against the alias of the row number 1 only. So all aliases of the device
are spelled well, but one with more digits, or with a count appended, may be too long, and then the
row is refused.
-/
namespace Cwmp

namespace Alias

def Spelled (s : List Char) : Prop :=
  (∃ c rest, s = c :: rest ∧ isLetter c = true) ∧ ∀ c ∈ s, isInner c = true

theorem isInner_of_isDigit {c : Char} (h : Text.isDigit c = true) : isInner c = true := by
  simp [isInner, h]

theorem utf8Size_of_isInner {c : Char} (h : isInner c = true) : c.utf8Size = 1 := by
  have hletter : ∀ {lo hi : Char}, lo ≤ c → c ≤ hi → hi.val ≤ 0x7F → c.utf8Size = 1 := by
    intro lo hi _ hhi htop
    exact Char.utf8Size_eq_one_iff.2 (UInt32.le_trans hhi htop)
  simp only [isInner, isLetter, Bool.or_eq_true, Bool.and_eq_true, decide_eq_true_eq,
    beq_iff_eq, Text.isDigit_iff] at h
  rcases h with (((⟨hlo, hhi⟩ | ⟨hlo, hhi⟩) | ⟨hlo, hhi⟩) | rfl) | rfl
  · exact hletter hlo hhi (by decide)
  · exact hletter hlo hhi (by decide)
  · exact hletter hlo hhi (by decide)
  · decide
  · decide

theorem spelled_of_isValid {s : String} (h : IsValid s) : Spelled s.toList := by
  unfold IsValid flaw? at h
  split at h
  next => cases h
  next c rest heq =>
    split_ifs at h with hlong hletter
    rw [Option.map_eq_none_iff, List.find?_eq_none] at h
    rw [heq]
    refine ⟨⟨c, rest, rfl, by simpa using hletter⟩, fun d hd => ?_⟩
    simpa using h d hd

theorem flaw?_of_spelled {s : String} (h : Spelled s.toList) :
    flaw? s = if maxLength < s.length then some .tooLong else none := by
  obtain ⟨⟨c, rest, heq, hletter⟩, hinner⟩ := h
  have hlength : Text.byteLength (c :: rest) = s.length := by
    rw [← heq, Text.byteLength_eq_length fun d hd => utf8Size_of_isInner (hinner d hd),
      String.length_toList]
  have hfind : (c :: rest).find? (fun d => !isInner d) = none := by
    rw [List.find?_eq_none, ← heq]
    intro d hd
    simp [hinner d hd]
  simp only [flaw?, heq, hlength, hletter, hfind, Bool.not_true, Bool.false_eq_true, ↓reduceIte,
    Option.map_none]

theorem Spelled.append {s t : List Char} (h : Spelled s) (ht : ∀ c ∈ t, isInner c = true) :
    Spelled (s ++ t) := by
  obtain ⟨⟨c, rest, rfl, hletter⟩, hinner⟩ := h
  exact ⟨⟨c, rest ++ t, rfl, hletter⟩, List.forall_mem_append.2 ⟨hinner, ht⟩⟩

end Alias

/-- With accepted settings the aliases of the device are spelled well. -/
theorem Settings.spelled_aliasStart {c : Settings} {o : Options} (h : c.options = .ok o) :
    o.aliasStart = c.aliasStart ∧ Alias.Spelled o.aliasStart.toList := by
  unfold options at h
  split at h
  next => cases h
  next s hs =>
    split_ifs at h
    cases h
    refine ⟨rfl, ?_⟩
    have hfirst : InstanceNumber.first.text = "1" := by decide
    rw [Alias.ofDevice, hfirst] at hs
    obtain ⟨⟨d, rest, heq, hletter⟩, hinner⟩ :=
      Alias.spelled_of_isValid (Alias.check_eq_ok_iff.1 hs).1
    rw [String.toList_append] at heq hinner
    refine ⟨?_, fun e he => hinner e (List.mem_append_left _ he)⟩
    cases hstart : c.aliasStart.toList with
    | nil =>
      rw [hstart] at heq
      cases heq
      cases hletter
    | cons e tail =>
      rw [hstart] at heq
      cases heq
      exact ⟨d, tail, rfl, hletter⟩

/-- An object whose rows have aliases. The alias is a text of its own, which has no part in unique
keys and does not tell whether the row is enabled. -/
class Named (E : Type) [Entity E] : Prop where
  field?_aliasName : Entity.field? E Entity.aliasName =
    some (.rw Entity.aliasName (.text Alias.maxLength)) := by rfl
  aliasName_not_mem_key : ∀ key ∈ Entity.uniqueKeys E, Entity.aliasName ∉ key := by decide
  isEnabled_withAlias : ∀ (e : E) (s : String),
    Entity.isEnabled (Entity.withAlias e s) = Entity.isEnabled e := by intro _ _; rfl

instance : Named Chain where
instance : Named FirewallRule where
instance : Named DhcpPool where
instance : Named StaticAddress where
instance : Named DhcpClient where
instance : Named ConditionalPool where
instance : Named PortMapping where
instance : Named IpInterface where
instance : Named Ipv4Entry where
instance : Named Ipv6Prefix where
instance : Named MqttClient where
instance : Named Subscription where
instance : Named AudioOutput where

/-- The rows of all tables have aliases. -/
instance (kind : ObjectKind) : Named kind.collection.Row where
  field?_aliasName := by cases kind <;> rfl
  aliasName_not_mem_key := by cases kind <;> decide
  isEnabled_withAlias := by cases kind <;> intro _ _ <;> rfl

namespace Entity

variable {E : Type} [Entity E] [Named E] {e : E} {s : String}

theorem put_alias (e : E) (s : String) :
    put e aliasName (.text s) = .ok (withAlias e s) ∧ alias? (withAlias e s) = some s := by
  have hstore : (Field.rw aliasName (.text Alias.maxLength)).shape.store (.text s) = .ok s := rfl
  obtain ⟨e', hput, hget⟩ := put_of_store e Named.field?_aliasName hstore
  have hnamed : withAlias e s = e' := assign_of_put hput
  refine ⟨hnamed ▸ hput, ?_⟩
  simp only [alias?, hnamed, hget]
  rfl

theorem validate_withAlias_subset (e : E) (h : s.length ≤ Alias.maxLength) :
    validate (withAlias e s) ⊆ validate e := by
  refine validate_put_subset (put_alias e s).1 Named.field?_aliasName ?_
  refine Kind.accepts_iff.2 (.text fun n hn => ?_)
  cases hn
  exact h

theorem clashes_withAlias (others : List E) (e : E) (s : String) {key : List String}
    (hkey : key ∈ uniqueKeys E) :
    Table.clashes others (withAlias e s) key = Table.clashes others e key := by
  refine Table.clashes_congr others (Named.isEnabled_withAlias e s) fun p hp => ?_
  have hne : p ≠ aliasName := fun heq => Named.aliasName_not_mem_key key hkey (heq ▸ hp)
  exact get?_assign_of_ne hne

end Entity

namespace Table

section Candidates

variable {start : String} {i : InstanceNumber}

theorem toList_deviceAlias_zero : (deviceAlias start i 0).toList =
    start.toList ++ Nat.toDigits 10 i.number := by
  simp [deviceAlias, InstanceNumber.text]

theorem toList_deviceAlias_succ (k : Nat) : (deviceAlias start i (k + 1)).toList =
    start.toList ++ (Nat.toDigits 10 i.number ++ '-' :: Nat.toDigits 10 (k + 1)) := by
  simp [deviceAlias, InstanceNumber.text]

theorem spelled_deviceAlias (h : Alias.Spelled start.toList) (k : Nat) :
    Alias.Spelled (deviceAlias start i k).toList := by
  have hdigits : ∀ n, ∀ c ∈ Nat.toDigits 10 n, Alias.isInner c = true := fun n c hc =>
    Alias.isInner_of_isDigit (Text.isDigit_of_mem_toDigits hc)
  cases k with
  | zero =>
    rw [toList_deviceAlias_zero]
    exact h.append (hdigits _)
  | succ k =>
    rw [toList_deviceAlias_succ]
    refine h.append (List.forall_mem_append.2 ⟨hdigits _, List.forall_mem_cons.2 ⟨?_, hdigits _⟩⟩)
    decide

theorem check_deviceAlias (h : Alias.Spelled start.toList) (k : Nat) :
    Alias.check (deviceAlias start i k) =
      if Alias.maxLength < (deviceAlias start i k).length then
        .error ⟨deviceAlias start i k, .tooLong⟩
      else .ok (deviceAlias start i k) := by
  rw [Alias.check, Alias.flaw?_of_spelled (spelled_deviceAlias h k)]
  split_ifs <;> rfl

theorem deviceAlias_injective : Function.Injective (deviceAlias start i) := by
  intro j k h
  have hlist := congrArg String.toList h
  cases j with
  | zero =>
    cases k with
    | zero => rfl
    | succ k => simp [toList_deviceAlias_zero, toList_deviceAlias_succ] at hlist
  | succ j =>
    cases k with
    | zero => simp [toList_deviceAlias_zero, toList_deviceAlias_succ] at hlist
    | succ k =>
      simp only [toList_deviceAlias_succ, List.append_cancel_left_eq, List.cons.injEq,
        true_and] at hlist
      have hdigits := congrArg Text.digits? hlist
      simpa using hdigits

theorem length_toDigits_mono {j k : Nat} (h : j ≤ k) :
    (Nat.toDigits 10 j).length ≤ (Nat.toDigits 10 k).length := by
  have hpos : 0 < (Nat.toDigits 10 k).length := List.length_pos_iff.2 Nat.toDigits_ne_nil
  have hlt := (Nat.length_toDigits_le_iff (by omega) hpos).1 (Nat.le_refl _)
  exact (Nat.length_toDigits_le_iff (by omega) hpos).2 (Nat.lt_of_le_of_lt h hlt)

theorem length_deviceAlias_mono {j k : Nat} (h : j ≤ k) :
    (deviceAlias start i j).length ≤ (deviceAlias start i k).length := by
  simp only [← String.length_toList]
  cases j with
  | zero =>
    cases k with
    | zero => exact Nat.le_refl _
    | succ k => simp [toList_deviceAlias_zero, toList_deviceAlias_succ]
  | succ j =>
    cases k with
    | zero => cases h
    | succ k =>
      have := length_toDigits_mono h
      simp only [toList_deviceAlias_succ, List.length_append, List.length_cons]
      omega

/-- A row number and a count of rows take ten digits at most. -/
theorem length_deviceAlias_le {k : Nat} (hk : k ≤ Text.uint32Max) :
    (deviceAlias start i k).length ≤ start.length + 21 := by
  have hten : ∀ n, n ≤ Text.uint32Max → (Nat.toDigits 10 n).length ≤ 10 := by
    intro n hn
    simp only [Text.uint32Max] at hn
    exact (Nat.length_toDigits_le_iff (by omega) (by omega)).2 (by omega)
  have hnumber := hten i.number i.le_max
  have hcount := hten k hk
  have hstart := String.length_toList (s := start)
  rw [← String.length_toList]
  cases k with
  | zero =>
    rw [toList_deviceAlias_zero, List.length_append]
    omega
  | succ k =>
    simp only [toList_deviceAlias_succ, List.length_append, List.length_cons]
    omega

end Candidates

section FirstFree

variable {E : Type} [Entity E] {start : String} {i : InstanceNumber} {others : List E} {k : Nat}

/-- The candidate `k` is the first that none of `others` has. -/
structure FirstFree (start : String) (i : InstanceNumber) (others : List E) (k : Nat) : Prop where
  free : aliasTaken others (deviceAlias start i k) = false
  taken : ∀ j, j < k → aliasTaken others (deviceAlias start i j) = true

/-- Each row takes one candidate at most, so there is a free one. -/
theorem exists_firstFree (start : String) (i : InstanceNumber) (others : List E) :
    ∃ k, k ≤ others.length ∧ FirstFree start i others k := by
  have hfree : ∃ k, k ≤ others.length ∧ aliasTaken others (deviceAlias start i k) = false := by
    by_contra hall
    push Not at hall
    have hsub : (List.range (others.length + 1)).map (fun k => some (deviceAlias start i k)) ⊆
        others.map Entity.alias? := by
      intro a ha
      obtain ⟨k, hk, rfl⟩ := List.mem_map.1 ha
      have htaken := hall k (by rw [List.mem_range] at hk; omega)
      rw [ne_eq, Bool.not_eq_false, aliasTaken_iff] at htaken
      obtain ⟨other, hother, halias⟩ := htaken
      exact List.mem_map.2 ⟨other, hother, halias⟩
    have hnodup : ((List.range (others.length + 1)).map
        fun k => some (deviceAlias start i k)).Nodup :=
      List.nodup_range.map fun _ _ h => deviceAlias_injective (Option.some.inj h)
    have hlength := (hnodup.subperm hsub).length_le
    simp at hlength
  obtain ⟨n, hn, hnfree⟩ := hfree
  have hexists : ∃ k, aliasTaken others (deviceAlias start i k) = false := ⟨n, hnfree⟩
  refine ⟨Nat.find hexists, Nat.le_trans (Nat.find_min' hexists hnfree) hn,
    Nat.find_spec hexists, fun j hj => ?_⟩
  simpa using Nat.find_min hexists hj

/-- The search stops at the `k`th candidate: all before it are aliases that others have, and this
one is free or is no alias. -/
structure StopsAt (start : String) (i : InstanceNumber) (others : List E) (k : Nat)
    (answer : Except AliasFault String) : Prop where
  passed : ∀ j, j < k → Alias.IsValid (deviceAlias start i j) ∧
    aliasTaken others (deviceAlias start i j) = true
  answered : (∃ flaw, Alias.flaw? (deviceAlias start i k) = some flaw ∧
      answer = .error ⟨deviceAlias start i k, flaw⟩) ∨
    (Alias.IsValid (deviceAlias start i k) ∧ aliasTaken others (deviceAlias start i k) = false ∧
      answer = .ok (deviceAlias start i k))

theorem FirstFree.exists_stopsAt (h : FirstFree start i others k) :
    ∃ n answer, n ≤ k ∧ StopsAt start i others n answer := by
  have hstop : ∃ n, ¬ Alias.IsValid (deviceAlias start i n) ∨
      aliasTaken others (deviceAlias start i n) = false := ⟨k, .inr h.free⟩
  have hle : Nat.find hstop ≤ k := Nat.find_min' hstop (.inr h.free)
  have hpassed : ∀ j, j < Nat.find hstop → Alias.IsValid (deviceAlias start i j) ∧
      aliasTaken others (deviceAlias start i j) = true := by
    intro j hj
    simpa only [not_or, not_not, Bool.not_eq_false] using Nat.find_min hstop hj
  cases hflaw : Alias.flaw? (deviceAlias start i (Nat.find hstop)) with
  | some flaw => exact ⟨_, _, hle, hpassed, .inl ⟨flaw, hflaw, rfl⟩⟩
  | none =>
    have hfree := (Nat.find_spec hstop).resolve_left (not_not.2 hflaw)
    exact ⟨_, _, hle, hpassed, .inr ⟨hflaw, hfree, rfl⟩⟩

section Stopping

variable {answer : Except AliasFault String}

theorem StopsAt.check_eq (h : StopsAt start i others k answer) :
    Alias.check (deviceAlias start i k) = answer := by
  unfold Alias.check
  rcases h.answered with ⟨flaw, hflaw, rfl⟩ | ⟨hvalid, -, rfl⟩
  · rw [hflaw]
  · rw [hvalid]

/-- With tries enough the alias is what the search stops with. -/
theorem StopsAt.freeAlias_eq (h : StopsAt start i others k answer) (tries : Nat) :
    ∀ j, j ≤ k → k ≤ j + tries → freeAlias start i others j tries = answer := by
  induction tries with
  | zero =>
    intro j hj hk
    obtain rfl : j = k := by omega
    exact h.check_eq
  | succ tries ih =>
    intro j hj hk
    rcases Nat.lt_or_eq_of_le hj with hlt | rfl
    · obtain ⟨hvalid, htaken⟩ := h.passed j hlt
      have hcheck := Alias.check_eq_ok_iff.2 ⟨hvalid, rfl⟩
      simp only [freeAlias, hcheck, htaken, ↓reduceIte]
      exact ih (j + 1) hlt (by omega)
    · rw [freeAlias, h.check_eq]
      rcases h.answered with ⟨flaw, -, rfl⟩ | ⟨-, hfree, rfl⟩
      · rfl
      · simp [hfree]

end Stopping

variable {tries : Nat}

theorem FirstFree.freeAlias_eq_ok (h : FirstFree start i others k)
    (hstart : Alias.Spelled start.toList) (hfits : (deviceAlias start i k).length ≤ Alias.maxLength)
    (hk : k ≤ tries) : freeAlias start i others 0 tries = .ok (deviceAlias start i k) := by
  have hvalid : ∀ j, j ≤ k → Alias.IsValid (deviceAlias start i j) := by
    intro j hj
    have hlength : (deviceAlias start i j).length ≤ (deviceAlias start i k).length :=
      length_deviceAlias_mono hj
    rw [Alias.IsValid, Alias.flaw?_of_spelled (spelled_deviceAlias hstart j), if_neg (by omega)]
  have hstops : StopsAt start i others k (.ok (deviceAlias start i k)) :=
    ⟨fun j hj => ⟨hvalid j hj.le, h.taken j hj⟩, .inr ⟨hvalid k k.le_refl, h.free, rfl⟩⟩
  exact hstops.freeAlias_eq tries 0 k.zero_le (by omega)

/-- If it is too long, one of the candidates up to it is refused for its length. -/
theorem FirstFree.freeAlias_eq_error (h : FirstFree start i others k)
    (hstart : Alias.Spelled start.toList) (hlong : Alias.maxLength < (deviceAlias start i k).length)
    (hk : k ≤ tries) :
    ∃ fault, fault.flaw = .tooLong ∧ freeAlias start i others 0 tries = .error fault := by
  obtain ⟨n, answer, hn, hstops⟩ := h.exists_stopsAt
  rw [hstops.freeAlias_eq tries 0 n.zero_le (by omega)]
  have hflaw := Alias.flaw?_of_spelled (spelled_deviceAlias (i := i) hstart n)
  rcases hstops.answered with ⟨flaw, hsome, rfl⟩ | ⟨hvalid, hfree, -⟩
  · refine ⟨_, ?_, rfl⟩
    rw [hsome] at hflaw
    split_ifs at hflaw
    exact Option.some.inj hflaw
  · -- A free one before `k` there is not, and `k` itself is too long.
    obtain rfl : n = k := by
      refine Nat.le_antisymm hn (Nat.not_lt.1 fun hlt => ?_)
      cases hfree.symm.trans (h.taken n hlt)
    rw [hvalid, if_pos hlong] at hflaw
    cases hflaw

end FirstFree

section Nameless

variable {E : Type} [Entity E] {t : Table E} {row : E} {k : Nat}

def candidate (t : Table E) (k : Nat) : String :=
  deviceAlias t.options.aliasStart t.next k

/-- There is room for a row, which has an empty alias and otherwise breaks no rule. -/
structure Nameless (t : Table E) (row : E) : Prop where
  room : ∀ n, t.options.maxEntries = some n → t.rows.size < n
  alias_empty : Entity.alias? row = some ""
  valid : Entity.validate row = []
  no_clash : ∀ key ∈ Entity.uniqueKeys E, clashes (t.rows.others none) row key = false

theorem Nameless.fullError?_eq (h : t.Nameless row) : t.fullError? = none := by
  unfold fullError?
  cases hmax : t.options.maxEntries with
  | none => rfl
  | some n =>
    have hroom := h.room n hmax
    exact if_neg (by omega)

theorem Nameless.named_eq (h : t.Nameless row) : t.named t.next row =
    (freeAlias t.options.aliasStart t.next (t.rows.others none) 0 t.rows.size).map
      (Entity.withAlias row) :=
  if_pos h.alias_empty

theorem Nameless.withRank [Ranked E] (h : t.Nameless row) {n : UInt32} (hn : n ≠ 0) :
    t.Nameless (Ranked.withRank row n) where
  room := h.room
  alias_empty := by rw [Ranked.alias?_withRank, h.alias_empty]
  valid := by
    have hsub := Entity.validate_withRank_subset row hn
    rw [h.valid] at hsub
    exact List.subset_nil.1 hsub
  no_clash := by
    intro key hkey
    rw [← h.no_clash key hkey]
    refine clashes_congr _ (Ranked.isEnabled_withRank row n) fun p hp => ?_
    have hne : p ≠ Ranked.rankName E := fun heq => Ranked.rankName_not_mem_key key hkey (heq ▸ hp)
    exact Ranked.get?_withRank_of_ne row n hne

theorem Nameless.add_eq_error (h : t.Nameless row)
    (hstart : Alias.Spelled t.options.aliasStart.toList)
    (hfree : FirstFree t.options.aliasStart t.next (t.rows.others none) k)
    (hk : k ≤ t.rows.size) (hlong : Alias.maxLength < (t.candidate k).length) :
    ∃ fault, fault.flaw = .tooLong ∧ t.add row = .error (.invalidAlias fault) := by
  obtain ⟨fault, hflaw, herror⟩ :=
    hfree.freeAlias_eq_error hstart hlong hk
  have hnamed : t.named t.next row = .error fault := by
    rw [h.named_eq, herror]
    rfl
  exact ⟨fault, hflaw, by simp only [add, h.fullError?_eq, hnamed]⟩

variable [Named E]

/-- The row is created under the first free candidate, unless that is too long. -/
theorem Nameless.add_eq_ok (h : t.Nameless row) (hstart : Alias.Spelled t.options.aliasStart.toList)
    (hfree : FirstFree t.options.aliasStart t.next (t.rows.others none) k)
    (hk : k ≤ t.rows.size) (hfits : (t.candidate k).length ≤ Alias.maxLength) :
    ∃ t', t.add row = .ok (t.next, t') ∧
      t'.get? t.next = some (Entity.withAlias row (t.candidate k)) := by
  have hnamed : t.named t.next row = .ok (Entity.withAlias row (t.candidate k)) := by
    rw [h.named_eq, hfree.freeAlias_eq_ok hstart hfits hk]
    rfl
  have hvalid : Entity.validate (Entity.withAlias row (t.candidate k)) = [] := by
    have hsub := Entity.validate_withAlias_subset row hfits
    rw [h.valid] at hsub
    exact List.subset_nil.1 hsub
  have hobeys : Obeys (t.rows.others none) (Entity.withAlias row (t.candidate k)) := by
    refine obeys_iff.2 ⟨fun s hs => ?_, fun key hkey => ?_⟩
    · obtain rfl := Option.some.inj (hs.symm.trans (Entity.put_alias row _).2)
      have hcheck : Alias.check (t.candidate k) = .ok (t.candidate k) :=
        (check_deviceAlias hstart k).trans (if_neg (Nat.not_lt.2 hfits))
      exact ⟨(Alias.check_eq_ok_iff.1 hcheck).1, hfree.free⟩
    · rw [Entity.clashes_withAlias _ row _ hkey]
      exact h.no_clash key hkey
  refine ⟨_, add_eq_ok_iff.2 ⟨h.fullError?_eq, rfl, _, hnamed, hvalid,
    rowError?_eq_none_iff.2 hobeys, rfl⟩, ?_⟩
  exact Rows.get?_eq_some_iff.2 (Rows.mem_entries_insert.2 (Or.inl ⟨rfl, rfl⟩))

end Nameless
end Table

theorem Ranking.rankAfter_ne_zero (n : UInt32) : rankAfter n ≠ 0 := by
  intro h
  have hzero := congrArg UInt32.toNat h
  have hlt := n.toNat_lt
  unfold rankAfter at hzero
  split_ifs at hzero with hmax
  · simp only [Text.uint32Max] at hmax
    simp only [UInt32.toNat_add, UInt32.reduceToNat] at hzero
    omega
  · rw [hzero] at hmax
    exact hmax (by decide)

section Created

variable {E : Type} [Entity E]

/-- The creation of a row is answered with its number, under which there is now a row with the alias
`s`, or, should `s` be too long, with an error that says so. -/
def CreatedAs {T : Type} (table : T → Table E) (i : InstanceNumber) (s : String)
    (answer : Except ModelError (InstanceNumber × T)) : Prop :=
  if s.length ≤ Alias.maxLength then
    ∃ t' row, answer = .ok (i, t') ∧ (table t').get? i = some row ∧ Entity.alias? row = some s
  else ∃ fault : AliasFault, fault.flaw = .tooLong ∧ answer = .error (.invalidAlias fault)

variable {t : Table E} {row : E}

/-- Ranks have no part in what becomes of the row. -/
theorem CreatedAs.insert [Ranked E] {requested : Option UInt32} {s : String}
    (hrequested : requested ≠ some 0)
    (h : CreatedAs id t.next s (t.add
      (Ranked.withRank row (requested.getD (Ranking.rankAfter (Ranking.mk t).maxRank))))) :
    CreatedAs Ranking.table t.next s ((Ranking.mk t).insert row requested) := by
  unfold CreatedAs at h ⊢
  split_ifs at h ⊢ with hfits
  · obtain ⟨table, new, hadd, hget, halias⟩ := h
    obtain ⟨n, hn⟩ := (Ranking.reranked_settle table (some t.next)).exists_mem
      (Rows.get?_eq_some_iff.1 hget)
    refine ⟨_, _, Ranking.insert_eq_ok_iff.2 ⟨hrequested, table, hadd, rfl⟩,
      Rows.get?_eq_some_iff.2 hn, ?_⟩
    rw [Ranked.alias?_withRank, halias]
  · obtain ⟨fault, hflaw, hadd⟩ := h
    refine ⟨fault, hflaw, ?_⟩
    simp only [Ranking.insert, hrequested, ↓reduceIte, hadd]
    rfl

variable [Named E]

theorem Table.Nameless.createdAs (h : t.Nameless row) {k : Nat}
    (hstart : Alias.Spelled t.options.aliasStart.toList)
    (hfree : FirstFree t.options.aliasStart t.next (t.rows.others none) k)
    (hk : k ≤ t.rows.size) : CreatedAs id t.next (t.candidate k) (t.add row) := by
  unfold CreatedAs
  split_ifs with hfits
  · obtain ⟨t', hadd, hget⟩ := h.add_eq_ok hstart hfree hk hfits
    exact ⟨t', _, hadd, hget, (Entity.put_alias row _).2⟩
  · exact h.add_eq_error hstart hfree hk (Nat.not_le.1 hfits)

/-- With accepted settings, a row that has an empty alias and otherwise breaks no rule gets the
first of the device's aliases that is free. It is refused only if that is longer than an alias may
be, which it never is if what it begins with leaves room for two numbers. -/
theorem createdAs_firstFree {c : Settings} (hoptions : c.options = .ok t.options)
    (h : t.Nameless row) :
    ∃ k, Table.FirstFree t.options.aliasStart t.next (t.rows.others none) k ∧
      (c.aliasStart.length ≤ 43 → (t.candidate k).length ≤ Alias.maxLength) ∧
      CreatedAs id t.next (t.candidate k) (t.add row) ∧
      ∀ [Ranked E] (requested : Option UInt32), requested ≠ some 0 →
        CreatedAs Ranking.table t.next (t.candidate k) ((Ranking.mk t).insert row requested) := by
  obtain ⟨hsame, hstart⟩ := Settings.spelled_aliasStart hoptions
  obtain ⟨k, hk, hfree⟩ :=
    Table.exists_firstFree t.options.aliasStart t.next (t.rows.others none)
  have hsize : k ≤ t.rows.size := Nat.le_trans hk (t.rows.length_others_le none)
  refine ⟨k, hfree, fun hshort => ?_, h.createdAs hstart hfree hsize, ?_⟩
  · have hlength : (t.candidate k).length ≤ t.options.aliasStart.length + 21 :=
      Table.length_deviceAlias_le (Nat.le_trans hsize t.rows.size_le)
    simp only [hsame, Alias.maxLength] at hlength ⊢
    omega
  · intro _ requested hrequested
    apply CreatedAs.insert hrequested
    refine (h.withRank ?_).createdAs hstart hfree hsize
    cases requested with
    | none => exact Ranking.rankAfter_ne_zero _
    | some r => exact fun hzero => hrequested (congrArg some hzero)

end Created

def takenAhead : Table FirewallRule :=
  Table.empty.run [.add { aliasText := "cpe-2" }]

theorem createdAs_firstFree_takenAhead :
    Settings.options {} = .ok takenAhead.options ∧ takenAhead.Nameless {} ∧
      ∃ k, Table.FirstFree "cpe-" { number := 2 } (takenAhead.rows.others none) k ∧
        CreatedAs id { number := 2 } (takenAhead.candidate k) (takenAhead.add {}) ∧
        CreatedAs Ranking.table { number := 2 } (takenAhead.candidate k)
          ((Ranking.mk takenAhead).insert {} (some 1)) := by
  have hnameless : takenAhead.Nameless {} :=
    ⟨(fun _ (hn : none = some _) => nomatch hn), rfl, by decide, by decide⟩
  obtain ⟨k, hfree, -, hadd, hinsert⟩ :=
    createdAs_firstFree (c := {}) (t := takenAhead) rfl hnameless
  exact ⟨rfl, hnameless, k, hfree, hadd, hinsert (some 1) (by decide)⟩

def longStart : Settings where
  aliasStart := String.ofList (List.replicate 63 'a')

def ninthOutput : Doc :=
  .table [(.index 9, .table [(.name "Alias", .text "nine")])]

/-- The settings are accepted, and the row after the ninth one is refused for its alias. -/
theorem alias_of_tenth_too_long : ∃ (o : Options) (t : Table AudioOutput),
    longStart.options = .ok o ∧ Table.decode ninthOutput = .ok t ∧
      (t.run [.setOptions o]).Nameless {} ∧
      (t.run [.setOptions o]).add {} =
        .error (.invalidAlias ⟨longStart.aliasStart ++ "10", .tooLong⟩) := by
  have hdecode : Table.decode ninthOutput = .ok (Table.ofRows (E := AudioOutput)
      ⟨[({ number := 9 }, { aliasText := "nine" })], by decide⟩) := rfl
  exact ⟨{ aliasStart := longStart.aliasStart }, _, rfl, hdecode,
    ⟨(fun _ (hn : none = some _) => nomatch hn), rfl, by decide, by decide⟩, rfl⟩

end Cwmp
