import Cwmp.Proofs.Table.DeviceAliases

/-! # The search for a free alias

The device tries its aliases for a row in turn until one is free or is no alias. Nothing bounds the
number of tries, and the count that is appended stays at the largest number it can hold. But
the candidates differ and each row has one alias at most, so the search ends when it has tried one
candidate more than there are rows, if not before. This holds of all tables, also of those that were
loaded with whatever aliases, and of every beginning of the device's aliases.
-/
namespace Cwmp.Table

variable {E : Type} [Entity E]

def HasAlias (t : Table E) (s : String) : Prop :=
  ∃ j row, t.get? j = some row ∧ Entity.alias? row = some s

/-- The search from the `k`th candidate on, without a bound: which candidates it tries, and what it
answers. -/
inductive Searches (start : String) (i : InstanceNumber) (others : List E) :
    (k : Nat) → (tried : List String) → Except AliasFault String → Prop
  | refused {k : Nat} {flaw : AliasFlaw} : Alias.flaw? (deviceAlias start i k) = some flaw →
      Searches start i others k [deviceAlias start i k] (.error ⟨deviceAlias start i k, flaw⟩)
  | free {k : Nat} : Alias.IsValid (deviceAlias start i k) →
      aliasTaken others (deviceAlias start i k) = false →
      Searches start i others k [deviceAlias start i k] (.ok (deviceAlias start i k))
  | taken {k : Nat} {tried : List String} {answer : Except AliasFault String} :
      Alias.IsValid (deviceAlias start i k) → aliasTaken others (deviceAlias start i k) = true →
      Searches start i others (min (k + 1) Text.uint32Max) tried answer →
      Searches start i others k (deviceAlias start i k :: tried) answer

section Stopping

variable {start : String} {i : InstanceNumber} {others : List E} {k : Nat}
  {answer : Except AliasFault String}

/-- The search tries the candidates up to the one at which it stops, as long as the count can be
held. -/
theorem StopsAt.searches (h : StopsAt start i others k answer) (hk : k ≤ Text.uint32Max) (n : Nat) :
    ∀ j, j + n = k →
      Searches start i others j ((List.range' j (n + 1)).map (deviceAlias start i)) answer := by
  induction n with
  | zero =>
    rintro j rfl
    rcases h.answered with ⟨flaw, hflaw, rfl⟩ | ⟨hvalid, hfree, rfl⟩
    · exact .refused hflaw
    · exact .free hvalid hfree
  | succ n ih =>
    intro j hj
    obtain ⟨hvalid, htaken⟩ := h.passed j (by omega)
    have hcount : min (j + 1) Text.uint32Max = j + 1 := Nat.min_eq_left (by omega)
    rw [List.range'_succ, List.map_cons]
    exact .taken hvalid htaken (hcount.symm ▸ ih (j + 1) (by omega))

/-- The search can go one way only. -/
theorem Searches.unique {tried tried' : List String} {answer' : Except AliasFault String}
    (h : Searches start i others k tried answer) (h' : Searches start i others k tried' answer') :
    tried' = tried ∧ answer' = answer := by
  induction h generalizing tried' answer' with
  | refused hflaw =>
    cases h' with
    | refused hflaw' =>
      obtain rfl := Option.some.inj (hflaw.symm.trans hflaw')
      exact ⟨rfl, rfl⟩
    | free hvalid _ => cases hflaw.symm.trans hvalid
    | taken hvalid _ _ => cases hflaw.symm.trans hvalid
  | free hvalid hfree =>
    cases h' with
    | refused hflaw => cases hflaw.symm.trans hvalid
    | free _ _ => exact ⟨rfl, rfl⟩
    | taken _ htaken _ => cases hfree.symm.trans htaken
  | taken hvalid htaken _ ih =>
    cases h' with
    | refused hflaw => cases hflaw.symm.trans hvalid
    | free _ hfree => cases hfree.symm.trans htaken
    | taken _ _ hrest =>
      obtain ⟨rfl, rfl⟩ := ih hrest
      exact ⟨rfl, rfl⟩

theorem StopsAt.unique {k' : Nat} {answer' : Except AliasFault String}
    (h : StopsAt start i others k answer) (h' : StopsAt start i others k' answer') :
    k' = k ∧ answer' = answer := by
  have hnot : ∀ {j m : Nat} {a b : Except AliasFault String}, StopsAt start i others j a →
      StopsAt start i others m b → ¬ j < m := by
    intro j m a b hj hm hlt
    obtain ⟨hvalid, htaken⟩ := hm.passed j hlt
    rcases hj.answered with ⟨flaw, hflaw, -⟩ | ⟨-, hfree, -⟩
    · cases hflaw.symm.trans hvalid
    · cases hfree.symm.trans htaken
  obtain rfl : k' = k := Nat.le_antisymm (Nat.not_lt.1 (hnot h h')) (Nat.not_lt.1 (hnot h' h))
  exact ⟨rfl, h'.check_eq.symm.trans h.check_eq⟩

theorem StopsAt.of_eq_ok {s : String} (h : StopsAt start i others k (.ok s)) :
    Alias.IsValid s ∧ aliasTaken others s = false ∧ deviceAlias start i k = s := by
  rcases h.answered with ⟨flaw, -, herror⟩ | ⟨hvalid, hfree, hok⟩
  · cases herror
  · obtain rfl := Except.ok.inj hok
    exact ⟨hvalid, hfree, rfl⟩

theorem StopsAt.eq_error_iff (h : StopsAt start i others k answer) {fault : AliasFault} :
    answer = .error fault ↔ ∃ n flaw,
      (∀ j, j < n → Alias.IsValid (deviceAlias start i j) ∧
        aliasTaken others (deviceAlias start i j) = true) ∧
      Alias.flaw? (deviceAlias start i n) = some flaw ∧ fault = ⟨deviceAlias start i n, flaw⟩ := by
  constructor
  · rintro rfl
    rcases h.answered with ⟨flaw, hflaw, herror⟩ | ⟨-, -, hok⟩
    · exact ⟨k, flaw, h.passed, hflaw, Except.error.inj herror⟩
    · cases hok
  · rintro ⟨n, flaw, hpassed, hflaw, rfl⟩
    have hstops : StopsAt start i others n (.error ⟨deviceAlias start i n, flaw⟩) :=
      ⟨hpassed, .inl ⟨flaw, hflaw, rfl⟩⟩
    exact (hstops.unique h).2

end Stopping

/-- What the search for an alias of the row `i` tries and what it answers. -/
structure FreeAliasExact (t : Table E) (i : InstanceNumber) (tried : List String)
    (answer : Except AliasFault String) : Prop where
  searches : Searches t.options.aliasStart i (t.rows.others none) 0 tried answer
  /-- The search can go no other way. -/
  determined : ∀ tried' answer',
    Searches t.options.aliasStart i (t.rows.others none) 0 tried' answer' →
      tried' = tried ∧ answer' = answer
  in_order : tried = (List.range tried.length).map (deviceAlias t.options.aliasStart i)
  length_le : tried.length ≤ t.rows.size + 1
  found : ∀ s, answer = .ok s → Alias.IsValid s ∧ ¬ t.HasAlias s ∧
    ∃ k, deviceAlias t.options.aliasStart i k = s ∧
      ∀ j, j < k → t.HasAlias (deviceAlias t.options.aliasStart i j)
  /-- The first candidate that is free or no alias is no alias. -/
  refused_iff : ∀ fault, answer = .error fault ↔ ∃ k flaw,
    (∀ j, j < k → Alias.IsValid (deviceAlias t.options.aliasStart i j) ∧
      t.HasAlias (deviceAlias t.options.aliasStart i j)) ∧
    Alias.flaw? (deviceAlias t.options.aliasStart i k) = some flaw ∧
    fault = ⟨deviceAlias t.options.aliasStart i k, flaw⟩
  add_refused : ∀ row fault, t.fullError? = none → Entity.alias? row = some "" → i = t.next →
    answer = .error fault → t.add row = .error (.invalidAlias fault)

theorem aliasTaken_others_none_iff {t : Table E} {s : String} :
    aliasTaken (t.rows.others none) s = true ↔ t.HasAlias s := by
  simp only [aliasTaken_iff, Rows.mem_others_none, HasAlias, Table.get?, Rows.get?_eq_some_iff]
  constructor
  · rintro ⟨row, ⟨j, hrow⟩, halias⟩
    exact ⟨j, row, hrow, halias⟩
  · rintro ⟨j, row, hrow, halias⟩
    exact ⟨row, ⟨j, hrow⟩, halias⟩

/-- The search for a free alias ends, having tried at most one candidate more than there are rows.
Its answer is the first candidate that no row has, unless one that is no alias comes first. -/
theorem freeAlias_exact (t : Table E) (i : InstanceNumber) : ∃ tried, FreeAliasExact t i tried
    (freeAlias t.options.aliasStart i (t.rows.others none) 0 t.rows.size) := by
  obtain ⟨n, hn, hfirst⟩ := exists_firstFree t.options.aliasStart i (t.rows.others none)
  obtain ⟨k, answer, hk, hstops⟩ := hfirst.exists_stopsAt
  have hsize : k ≤ t.rows.size := hk.trans (hn.trans (t.rows.length_others_le none))
  have hanswer : freeAlias t.options.aliasStart i (t.rows.others none) 0 t.rows.size = answer :=
    hstops.freeAlias_eq t.rows.size 0 k.zero_le (by omega)
  have hsearches := hstops.searches (hsize.trans t.rows.size_le) k 0 (by omega)
  rw [← List.range_eq_range'] at hsearches
  rw [hanswer]
  refine ⟨(List.range (k + 1)).map (deviceAlias t.options.aliasStart i), ?_⟩
  constructor
  · exact hsearches
  · exact fun tried' answer' h => hsearches.unique h
  · simp
  · simpa using hsize
  · rintro s rfl
    obtain ⟨hvalid, hfree, hs⟩ := hstops.of_eq_ok
    refine ⟨hvalid, fun hhas => ?_, k, hs, fun j hj => ?_⟩
    · cases hfree.symm.trans (aliasTaken_others_none_iff.2 hhas)
    · exact aliasTaken_others_none_iff.1 (hstops.passed j hj).2
  · intro fault
    simp only [← aliasTaken_others_none_iff]
    exact hstops.eq_error_iff
  · rintro row fault hroom halias rfl rfl
    have hnamed : t.named t.next row = .error fault := by
      rw [named, if_pos halias, hanswer]
      rfl
    simp only [add, hroom, hnamed]

end Cwmp.Table
