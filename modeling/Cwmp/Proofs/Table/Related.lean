import Cwmp.Proofs.Entity.Same
import Cwmp.Proofs.Table.Aliases

/-! # Tables with related rows

A relation between rows that no rule of a table looks behind carries over to tables: the rows under
each number are related, and the indexes, counters and options agree. Such tables answer an
operation alike and stay related, even if they are not asked for quite the same but for rows and
with requests that are related.
-/
namespace Cwmp

variable {E : Type}

def EntriesRelated (R : E → E → Prop) (l l' : List (InstanceNumber × E)) : Prop :=
  List.Forall₂ (fun e e' => e.1 = e'.1 ∧ R e.2 e'.2) l l'

namespace EntriesRelated

variable {R : E → E → Prop} {l l' : List (InstanceNumber × E)} {p : InstanceNumber × E → Bool}

theorem numbers_eq (h : EntriesRelated R l l') : l.map Prod.fst = l'.map Prod.fst :=
  List.forall₂_eq_eq_eq ▸ List.rel_map (fun _ _ he => he.1) h

theorem find? (h : EntriesRelated R l l') (hp : ∀ i a b, R a b → p (i, a) = p (i, b)) :
    (l.find? p = none ∧ l'.find? p = none) ∨
      ∃ i a b, l.find? p = some (i, a) ∧ l'.find? p = some (i, b) ∧ R a b := by
  unfold EntriesRelated at h
  induction h with
  | nil => exact .inl ⟨rfl, rfl⟩
  | @cons e e' _ _ he _ ih =>
    obtain ⟨i, a⟩ := e
    obtain ⟨j, b⟩ := e'
    obtain ⟨rfl, hab⟩ : i = j ∧ R a b := he
    rw [List.find?_cons, List.find?_cons, hp i a b hab]
    cases p (i, b) with
    | true => exact .inr ⟨i, a, b, rfl, rfl, hab⟩
    | false => exact ih

theorem filter (h : EntriesRelated R l l') (hp : ∀ i a b, R a b → p (i, a) = p (i, b)) :
    EntriesRelated R (l.filter p) (l'.filter p) := by
  refine List.rel_filter ?_ h
  rintro ⟨i, a⟩ ⟨j, b⟩ ⟨hij, hab⟩
  obtain rfl : i = j := hij
  exact iff_of_eq (congrArg (· = true) (hp i a b hab))

theorem map_eq {α : Type} (h : EntriesRelated R l l') {f g : InstanceNumber × E → α}
    (hfg : ∀ i a b, R a b → f (i, a) = g (i, b)) : l.map f = l'.map g := by
  unfold EntriesRelated at h
  induction h with
  | nil => rfl
  | @cons e e' _ _ he _ ih =>
    obtain ⟨i, a⟩ := e
    obtain ⟨j, b⟩ := e'
    obtain ⟨rfl, hab⟩ : i = j ∧ R a b := he
    rw [List.map_cons, List.map_cons, hfg i a b hab, ih]

theorem filterMap_eq {α : Type} (h : EntriesRelated R l l') {f g : InstanceNumber × E → Option α}
    (hfg : ∀ i a b, R a b → f (i, a) = g (i, b)) : l.filterMap f = l'.filterMap g := by
  have hmap := congrArg (List.filterMap id) (h.map_eq hfg)
  rwa [List.filterMap_map, List.filterMap_map] at hmap

theorem flatMap_eq {α : Type} (h : EntriesRelated R l l') {f : InstanceNumber × E → List α}
    (hf : ∀ i a b, R a b → f (i, a) = f (i, b)) : l.flatMap f = l'.flatMap f := by
  rw [List.flatMap_def, List.flatMap_def, h.map_eq hf]

end EntriesRelated

namespace Rows

variable {R : E → E → Prop} {r s : Rows E}

def Related (R : E → E → Prop) (r s : Rows E) : Prop :=
  EntriesRelated R r.entries s.entries

namespace Related

theorem size_eq (h : Related R r s) : r.size = s.size :=
  h.length_eq

theorem instances_eq (h : Related R r s) : r.instances = s.instances :=
  EntriesRelated.numbers_eq h

theorem get? (h : Related R r s) (i : InstanceNumber) :
    (r.get? i = none ∧ s.get? i = none) ∨ ∃ a b, r.get? i = some a ∧ s.get? i = some b ∧ R a b := by
  unfold Rows.get?
  rcases h.find? (p := fun e => e.1 == i) fun _ _ _ _ => rfl with
    ⟨hr, hs⟩ | ⟨j, a, b, hr, hs, hab⟩
  · exact .inl ⟨by rw [hr, Option.map_none], by rw [hs, Option.map_none]⟩
  · exact .inr ⟨a, b, by rw [hr, Option.map_some], by rw [hs, Option.map_some], hab⟩

theorem others (h : Related R r s) (i : Option InstanceNumber) :
    List.Forall₂ R (r.others i) (s.others i) :=
  List.rel_map (fun _ _ he => he.2) (h.filter fun _ _ _ _ => rfl)

theorem map (h : Related R r s) {f g : InstanceNumber → E → E}
    (hfg : ∀ i a b, R a b → R (f i a) (g i b)) : Related R (r.map f) (s.map g) := by
  refine List.rel_map ?_ h
  rintro ⟨i, a⟩ ⟨j, b⟩ ⟨hij, hab⟩
  obtain rfl : i = j := hij
  exact ⟨rfl, hfg i a b hab⟩

theorem replace {a b : E} (h : Related R r s) (i : InstanceNumber) (hab : R a b) :
    Related R (r.replace i a) (s.replace i b) := by
  apply h.map
  intro j old old' hold
  split_ifs
  · exact hab
  · exact hold

theorem insert {a b : E} (h : Related R r s) (i : InstanceNumber) (hab : R a b) :
    Related R (r.insert i a) (s.insert i b) := by
  by_cases hi : i ∈ r.instances
  · have hi' : i ∈ s.instances := h.instances_eq ▸ hi
    simp only [Rows.insert, hi, hi', ↓reduceDIte]
    exact h.replace i hab
  · have hi' : i ∉ s.instances := h.instances_eq ▸ hi
    rw [Related, entries_insert hi, entries_insert hi']
    exact List.rel_append h (.cons ⟨rfl, hab⟩ .nil)

theorem erase (h : Related R r s) (i : InstanceNumber) : Related R (r.erase i) (s.erase i) :=
  h.filter fun _ _ _ _ => rfl

end Related
end Rows

namespace Table

/-- Two indexes in which every alias stands for the same row. -/
def SameIndex (x y : AliasIndex) : Prop :=
  ∀ s, x.get? s = y.get? s

structure Related (R : E → E → Prop) (t u : Table E) : Prop where
  rows : Rows.Related R t.rows u.rows
  aliases : SameIndex t.aliases u.aliases
  next : t.next = u.next
  options : t.options = u.options

namespace Related

variable {R : E → E → Prop} {t u : Table E}

theorem setOptions (h : Related R t u) (options : Options) :
    Related R (t.setOptions options) (u.setOptions options) :=
  ⟨h.rows, h.aliases, h.next, rfl⟩

theorem outcome {ε : Type} {x y : Except ε (Table E)} (h : Related R t u)
    (hxy : AnswerAlike (Related R) x y) : Related R (outcome t x) (outcome u y) := by
  cases hxy with
  | ok htu => exact htu
  | error e => exact h

end Related
end Table

variable [Entity E]

namespace Table

/-- A relation of rows that no rule of a table looks behind, and one of requests that related rows
answer alike. -/
structure Oblivious (R : E → E → Prop) (S : Updates → Updates → Prop) : Prop where
  alias?_eq : ∀ {a b}, R a b → Entity.alias? a = Entity.alias? b
  withAlias : ∀ {a b} s, R a b → R (Entity.withAlias a s) (Entity.withAlias b s)
  isEnabled_eq : ∀ {a b}, R a b → Entity.isEnabled a = Entity.isEnabled b
  get?_eq : ∀ {a b}, R a b → ∀ key ∈ Entity.uniqueKeys E, ∀ name ∈ key,
    Entity.get? a name = Entity.get? b name
  validate_eq : ∀ {a b}, R a b → Entity.validate a = Entity.validate b
  names_eq : ∀ {u v}, S u v → u.map Prod.fst = v.map Prod.fst
  write : ∀ {a b u v} origin, R a b → S u v →
    AnswerAlike R (Entity.write origin u a) (Entity.write origin v b)

namespace Oblivious

variable {R : E → E → Prop} {S : Updates → Updates → Prop} {others others' : List E} {a b : E}

theorem aliasTaken_eq (h : Oblivious R S) (hothers : List.Forall₂ R others others') (s : String) :
    aliasTaken others s = aliasTaken others' s := by
  unfold aliasTaken
  induction hothers with
  | nil => rfl
  | cons hab _ ih => rw [List.any_cons, List.any_cons, h.alias?_eq hab, ih]

theorem clashes_eq (h : Oblivious R S) (hothers : List.Forall₂ R others others') (hab : R a b)
    {key : List String} (hkey : key ∈ Entity.uniqueKeys E) :
    clashes others a key = clashes others' b key := by
  unfold clashes
  rw [h.isEnabled_eq hab]
  congr 1
  induction hothers with
  | nil => rfl
  | @cons other other' _ _ hother _ ih =>
    have hagree : (key.all fun p => Entity.get? a p == Entity.get? other p) =
        key.all fun p => Entity.get? b p == Entity.get? other' p := by
      rw [Bool.eq_iff_iff, List.all_eq_true, List.all_eq_true]
      refine forall₂_congr fun name hname => ?_
      rw [h.get?_eq hab key hkey name hname, h.get?_eq hother key hkey name hname]
    rw [List.any_cons, List.any_cons, h.isEnabled_eq hother, hagree, ih]

theorem rowError?_eq (h : Oblivious R S) (hothers : List.Forall₂ R others others') (hab : R a b) :
    rowError? others a = rowError? others' b := by
  have hclash : (Entity.uniqueKeys E).find? (clashes others a) =
      (Entity.uniqueKeys E).find? (clashes others' b) :=
    List.find?_congr fun key hkey => h.clashes_eq hothers hab hkey
  unfold rowError?
  simp only [h.alias?_eq hab, hclash, h.aliasTaken_eq hothers]

theorem rowFaults_eq (h : Oblivious R S) (hothers : List.Forall₂ R others others') (hab : R a b)
    (requested : List String) : rowFaults others a requested = rowFaults others' b requested := by
  have haliases : aliasFaults others a = aliasFaults others' b := by
    unfold aliasFaults
    simp only [h.alias?_eq hab, h.aliasTaken_eq hothers]
  unfold rowFaults
  rw [haliases]
  congr 1
  apply List.flatMap_congr
  intro key hkey
  simp only [keyFaults, h.clashes_eq hothers hab hkey]

theorem freeAlias_eq (h : Oblivious R S) (hothers : List.Forall₂ R others others')
    (aliasStart : String) (i : InstanceNumber) (k tries : Nat) :
    freeAlias aliasStart i others k tries = freeAlias aliasStart i others' k tries := by
  induction tries generalizing k with
  | zero => rfl
  | succ tries ih =>
    unfold freeAlias
    simp only [h.aliasTaken_eq hothers, ih]

end Oblivious

theorem get?_insert (x : AliasIndex) (i : InstanceNumber) (s t : String) :
    (x.insert s i).get? t = if t = s then some i else x.get? t := by
  split_ifs with h
  · rw [h, AliasIndex.get?_insert_self]
  · exact AliasIndex.get?_insert_of_ne x i h

/-- The row that takes the place of the row `i` under the alias `s`. -/
def heir? (r : Rows E) (i : InstanceNumber) (s : String) : Option InstanceNumber :=
  (r.entries.find? fun (j, other) => j != i && Entity.alias? other == some s).map Prod.fst

theorem get?_unindex (x : AliasIndex) (r : Rows E) (i : InstanceNumber) (s t : String) :
    (unindex x r i s).get? t = if x.get? s = some i ∧ t = s then heir? r i s else x.get? t := by
  by_cases ht : t = s
  · subst ht
    simp only [and_true]
    unfold unindex heir?
    split_ifs with hi
    · split
      next j _ hfind => simp [hfind]
      next hfind => simp [hfind]
    · rfl
  · rw [if_neg fun hand => ht hand.2, get?_unindex_of_ne ht]

namespace Oblivious

variable {R : E → E → Prop} {S : Updates → Updates → Prop} {x y : AliasIndex} {r s : Rows E}
  {a b : E}

theorem indexRow (h : Oblivious R S) (hindex : SameIndex x y) (i : InstanceNumber) (hab : R a b) :
    SameIndex (indexRow x i a) (indexRow y i b) := by
  unfold Table.indexRow
  rw [h.alias?_eq hab]
  cases Entity.alias? b with
  | none => exact hindex
  | some s =>
    intro t
    simp only [get?_insert, hindex t]

theorem heir?_eq (h : Oblivious R S) (hrows : Rows.Related R r s) (i : InstanceNumber)
    (t : String) : heir? r i t = heir? s i t := by
  unfold heir?
  rcases hrows.find? (p := fun e => e.1 != i && Entity.alias? e.2 == some t)
    fun j a b hab => by rw [h.alias?_eq hab] with ⟨hr, hs⟩ | ⟨j, a, b, hr, hs, -⟩
  · rw [hr, hs]
  · rw [hr, hs, Option.map_some, Option.map_some]

theorem unindexRow (h : Oblivious R S) (hindex : SameIndex x y) (hrows : Rows.Related R r s)
    (i : InstanceNumber) (hab : R a b) :
    SameIndex (unindexRow x r i a) (unindexRow y s i b) := by
  unfold Table.unindexRow
  rw [h.alias?_eq hab]
  cases Entity.alias? b with
  | none => exact hindex
  | some name =>
    intro t
    simp only [get?_unindex, hindex _, h.heir?_eq hrows]

end Oblivious

namespace Related

variable {R : E → E → Prop} {S : Updates → Updates → Prop} {t u : Table E} {a b a' b' : E}

theorem row (h : Related R t u) (i : InstanceNumber) : AnswerAlike R (t.row i) (u.row i) := by
  unfold Table.row Table.get?
  rcases h.rows.get? i with ⟨ht, hu⟩ | ⟨a, b, ht, hu, hab⟩
  · rw [ht, hu]
    exact .error _
  · rw [ht, hu]
    exact .ok hab

theorem resolve (h : Related R t u) (s : String) : t.resolve s = u.resolve s := by
  simp only [Table.resolve, h.aliases s]

theorem named (h : Related R t u) (hR : Oblivious R S) (i : InstanceNumber) (hab : R a b) :
    AnswerAlike R (t.named i a) (u.named i b) := by
  unfold Table.named
  rw [hR.alias?_eq hab, h.options, h.rows.size_eq, hR.freeAlias_eq (h.rows.others none)]
  split_ifs
  · cases freeAlias u.options.aliasStart i (u.rows.others none) 0 u.rows.size with
    | ok s => exact .ok (hR.withAlias s hab)
    | error fault => exact .error fault
  · exact .ok hab

theorem add (h : Related R t u) (hR : Oblivious R S) (hab : R a b) :
    AnswerAlike (fun p q => p.1 = q.1 ∧ Related R p.2 q.2) (t.add a) (u.add b) := by
  have hfull : t.fullError? = u.fullError? := by
    simp only [Table.fullError?, h.options, h.rows.size_eq]
  unfold Table.add
  simp only [hfull, h.next]
  cases u.fullError? with
  | some error => exact .error error
  | none =>
    rcases (h.named hR u.next hab).cases with ⟨a', b', ha, hb, hab'⟩ | ⟨fault, ha, hb⟩
    · simp only [ha, hb, hR.validate_eq hab', hR.rowError?_eq (h.rows.others none) hab']
      split
      · split
        · exact .error _
        · exact .ok ⟨rfl, h.rows.insert _ hab', hR.indexRow h.aliases _ hab', rfl, h.options⟩
      · exact .error _
    · simp only [ha, hb]
      exact .error _

theorem drop (h : Related R t u) (hR : Oblivious R S) (i : InstanceNumber) (hab : R a b) :
    Related R (t.drop i a) (u.drop i b) where
  rows := h.rows.erase i
  aliases := hR.unindexRow h.aliases h.rows i hab
  next := h.next
  options := h.options

theorem remove (h : Related R t u) (hR : Oblivious R S) (i : InstanceNumber) :
    AnswerAlike (fun p q => R p.1 q.1 ∧ Related R p.2 q.2) (t.remove i) (u.remove i) :=
  (h.row i).map fun _ _ hab => ⟨hab, h.drop hR i hab⟩

theorem commit (h : Related R t u) (hR : Oblivious R S) (i : InstanceNumber) (hab : R a b)
    (hab' : R a' b') : Related R (t.commit i a a') (u.commit i b b') where
  rows := h.rows.replace i hab'
  aliases := by
    simp only [Table.commit, hR.alias?_eq hab, hR.alias?_eq hab']
    split_ifs
    · exact h.aliases
    · exact hR.indexRow (hR.unindexRow h.aliases h.rows i hab) i hab'
  next := h.next
  options := h.options

/-- Rows that go away together go away from both tables. -/
theorem foldl_drop (h : Related R t u) (hR : Oblivious R S)
    {doomed doomed' : List (InstanceNumber × E)} (hdoomed : EntriesRelated R doomed doomed') :
    Related R (doomed.foldl (fun t e => t.drop e.1 e.2) t)
      (doomed'.foldl (fun u e => u.drop e.1 e.2) u) := by
  refine List.rel_foldl ?_ h hdoomed
  rintro t u htu ⟨i, a⟩ ⟨j, b⟩ ⟨hij, hab⟩
  obtain rfl : i = j := hij
  exact htu.drop hR i hab

theorem removeWhere (h : Related R t u) (hR : Oblivious R S) {p : E → Bool}
    (hp : ∀ a b, R a b → p a = p b) :
    EntriesRelated R (t.removeWhere p).1 (u.removeWhere p).1 ∧
      Related R (t.removeWhere p).2 (u.removeWhere p).2 := by
  have hdoomed := h.rows.filter (p := fun e => p e.2) fun _ a b hab => hp a b hab
  exact ⟨hdoomed, h.foldl_drop hR hdoomed⟩

theorem write (h : Related R t u) (hR : Oblivious R S) (i : InstanceNumber) (origin : Origin)
    {updates updates' : Updates} (hupdates : S updates updates') :
    AnswerAlike (Related R) (t.write i origin updates) (u.write i origin updates') := by
  unfold Table.write
  rcases (h.row i).cases with ⟨a, b, ha, hb, hab⟩ | ⟨error, ha, hb⟩
  · rcases (hR.write origin hab hupdates).cases with ⟨a', b', ha', hb', hab'⟩ | ⟨fault, ha', hb'⟩
    · simp only [ha, hb, ha', hb', hR.names_eq hupdates,
        hR.rowFaults_eq (h.rows.others (some i)) hab']
      split
      · exact .ok (h.commit hR i hab hab')
      · exact .error _
    · simp only [ha, hb, ha', hb']
      exact .error _
  · simp only [ha, hb]
    exact .error _

theorem update (h : Related R t u) (hR : Oblivious R S) (i : InstanceNumber) {f g : E → E}
    (hfg : ∀ a b, R a b → R (f a) (g b)) :
    AnswerAlike (Related R) (t.update i f) (u.update i g) := by
  unfold Table.update
  rcases (h.row i).cases with ⟨a, b, ha, hb, hab⟩ | ⟨error, ha, hb⟩
  · have hab' := hfg a b hab
    simp only [ha, hb, hR.validate_eq hab', hR.rowError?_eq (h.rows.others (some i)) hab']
    split
    · split
      · exact .error _
      · exact .ok (h.commit hR i hab hab')
    · exact .error _
  · simp only [ha, hb]
    exact .error _

theorem violations_eq (h : Rows.Related R t.rows u.rows) (hR : Oblivious R S) :
    t.violations = u.violations := by
  refine h.filterMap_eq fun i a b hab => ?_
  dsimp only
  rw [hR.rowFaults_eq (h.others (some i)) hab]

theorem parameters_eq (h : Rows.Related R t.rows u.rows)
    (htexts : ∀ a b, R a b → Entity.texts a = Entity.texts b) (path : String) :
    t.parameters path = u.parameters path := by
  refine h.flatMap_eq fun i a b hab => ?_
  dsimp only
  rw [htexts a b hab]

end Related

/-- What an operation answers: the numbers of the rows that it has made, changed or deleted, or the
error with which it was refused. -/
def Op.answer (t : Table E) : Op E → Except ModelError (List InstanceNumber)
  | add row => (t.add row).map fun added => [added.1]
  | remove i => (t.remove i).map fun _ => [i]
  | removeWhere p => .ok ((t.removeWhere p).1.map Prod.fst)
  | purge now => .ok ((t.purge now).1.map Prod.fst)
  | write i origin updates => (t.write i origin updates).map fun _ => [i]
  | update i f => (t.update i f).map fun _ => [i]
  | setOptions _ => .ok []

def answers (t : Table E) : List (Op E) → List (Except ModelError (List InstanceNumber))
  | [] => []
  | op :: ops => op.answer t :: answers (op.run t) ops

/-- The same operation on two tables but for the row that is added, the texts that are written or
the function by which a row is changed. -/
inductive Op.Paired (R : E → E → Prop) (S : Updates → Updates → Prop) : Op E → Op E → Prop
  | add {a b : E} : R a b → Paired R S (.add a) (.add b)
  | remove (i : InstanceNumber) : Paired R S (.remove i) (.remove i)
  | removeWhere {p : E → Bool} : (∀ a b, R a b → p a = p b) →
      Paired R S (.removeWhere p) (.removeWhere p)
  | purge [Expiring E] (now : Instant) :
      (∀ a b : E, R a b → Expiring.expiresAt a = Expiring.expiresAt b) →
      Paired R S (.purge now) (.purge now)
  | write (i : InstanceNumber) (origin : Origin) {updates updates' : Updates} :
      S updates updates' → Paired R S (.write i origin updates) (.write i origin updates')
  | update (i : InstanceNumber) {f g : E → E} : (∀ a b, R a b → R (f a) (g b)) →
      Paired R S (.update i f) (.update i g)
  | setOptions (options : Options) : Paired R S (.setOptions options) (.setOptions options)

namespace Related

variable {R : E → E → Prop} {S : Updates → Updates → Prop} {t u : Table E}

/-- An operation is answered alike, and the tables stay related. -/
theorem step (h : Related R t u) (hR : Oblivious R S) {op op' : Op E} (hop : Op.Paired R S op op') :
    op.answer t = op'.answer u ∧ Related R (op.run t) (op'.run u) := by
  cases hop with
  | add hab =>
    have hadd := h.add hR hab
    refine ⟨hadd.map_eq fun p q hpq => by rw [hpq.1], ?_⟩
    exact h.outcome (hadd.map fun p q hpq => hpq.2)
  | remove i =>
    have hremove := h.remove hR i
    exact ⟨hremove.map_eq fun _ _ _ => rfl, h.outcome (hremove.map fun p q hpq => hpq.2)⟩
  | removeWhere hp =>
    obtain ⟨hremoved, htu⟩ := h.removeWhere hR hp
    exact ⟨congrArg Except.ok hremoved.numbers_eq, htu⟩
  | purge now hexpires =>
    obtain ⟨hremoved, htu⟩ := h.removeWhere hR (p := fun row => Expiring.isExpired row now)
      fun a b hab => by rw [Expiring.isExpired, Expiring.isExpired, hexpires a b hab]
    exact ⟨congrArg Except.ok hremoved.numbers_eq, htu⟩
  | write i origin hupdates =>
    have hwrite := h.write hR i origin hupdates
    exact ⟨hwrite.map_eq fun _ _ _ => rfl, h.outcome hwrite⟩
  | update i hfg =>
    have hupdate := h.update hR i hfg
    exact ⟨hupdate.map_eq fun _ _ _ => rfl, h.outcome hupdate⟩
  | setOptions options => exact ⟨rfl, h.setOptions options⟩

theorem run (h : Related R t u) (hR : Oblivious R S) {ops ops' : List (Op E)}
    (hops : List.Forall₂ (Op.Paired R S) ops ops') :
    t.answers ops = u.answers ops' ∧ Related R (t.run ops) (u.run ops') := by
  induction hops generalizing t u with
  | nil => exact ⟨rfl, h⟩
  | cons hop _ ih =>
    obtain ⟨hanswer, hstep⟩ := h.step hR hop
    obtain ⟨hanswers, hrun⟩ := ih hstep
    refine ⟨?_, hrun⟩
    rw [answers, answers, hanswer, hanswers]

end Related
end Table
end Cwmp
