import Cwmp.Proofs.Entity.Secrets
import Cwmp.Proofs.Objects.Regular
import Cwmp.Proofs.Table.Related

/-! # Secrets of rows

Two tables whose rows differ only in what their secret parameters hold answer alike whatever is done
to both of them, also when the rows that are added and the texts that are written differ in secrets.
Whoever reads the tables learns nothing of the secrets.
-/
namespace Cwmp

variable {E : Type} [Entity E] {R : E → E → Prop} {S : Updates → Updates → Prop}

namespace Entity

def requests (e : E) : List (Origin × Updates) → List (Except SetFault Unit) × E
  | [] => ([], e)
  | (origin, updates) :: rest =>
    let (answer, e) := request origin updates e
    let (answers, e) := requests e rest
    (answer :: answers, e)

end Entity

namespace Table.Oblivious

variable {a b : E} {updates updates' : Updates}

theorem request (hR : Oblivious R S) (h : R a b) (hupdates : S updates updates') (origin : Origin) :
    (Entity.request origin updates a).1 = (Entity.request origin updates' b).1 ∧
      R (Entity.request origin updates a).2 (Entity.request origin updates' b).2 := by
  unfold Entity.request
  rcases (hR.write origin h hupdates).cases with ⟨a', b', ha, hb, hab⟩ | ⟨fault, ha, hb⟩
  · rw [ha, hb]
    exact ⟨rfl, hab⟩
  · rw [ha, hb]
    exact ⟨rfl, h⟩

theorem requests (hR : Oblivious R S) (h : R a b) {made made' : List (Origin × Updates)}
    (hmade : List.Forall₂ (fun p q => p.1 = q.1 ∧ S p.2 q.2) made made') :
    (Entity.requests a made).1 = (Entity.requests b made').1 ∧
      R (Entity.requests a made).2 (Entity.requests b made').2 := by
  induction hmade generalizing a b with
  | nil => exact ⟨rfl, h⟩
  | @cons p q _ _ hpq _ ih =>
    obtain ⟨origin, updates⟩ := p
    obtain ⟨origin', updates'⟩ := q
    obtain ⟨rfl, hupdates⟩ : origin = origin' ∧ S updates updates' := hpq
    obtain ⟨hanswer, hrequest⟩ := hR.request h hupdates origin
    obtain ⟨hanswers, hrest⟩ := ih hrequest
    simp only [Entity.requests, hanswer, hanswers, hrest, and_self]

end Table.Oblivious

namespace Table

structure ReadsAlike (t u : Table E) : Prop where
  parameters : ∀ path, t.parameters path = u.parameters path
  names : ∀ path, t.names path = u.names path
  texts : (t.rows.entries.map fun e => (e.1, Entity.texts e.2)) =
    u.rows.entries.map fun e => (e.1, Entity.texts e.2)
  resolve : ∀ s, t.resolve s = u.resolve s
  violations : t.violations = u.violations

/-- The changes of a row between two states of a table that are to be reported, if both have it. -/
def changes? (n : Notification E) (before after : Table E) (i : InstanceNumber) :
    Option (List ValueChange) :=
  (before.get? i).bind fun old => (after.get? i).map fun row => n.changes old row

namespace Related

variable {t u t' u' : Table E}

theorem readsAlike (h : Related R t u) (hR : Oblivious R S)
    (htexts : ∀ a b, R a b → Entity.texts a = Entity.texts b) : ReadsAlike t u where
  parameters := parameters_eq h.rows htexts
  names path := by rw [Table.names, Table.names, parameters_eq h.rows htexts]
  texts := by
    rw [← List.forall₂_eq_eq_eq, List.forall₂_map_left_iff, List.forall₂_map_right_iff]
    exact List.Forall₂.imp (fun _ _ he => Prod.ext he.1 (htexts _ _ he.2)) h.rows
  resolve := h.resolve
  violations := violations_eq h.rows hR

theorem changes?_eq (h : Related R t u) (h' : Related R t' u') {n : Notification E}
    (hn : ∀ a b a' b', R a b → R a' b' → n.changes a a' = n.changes b b') (i : InstanceNumber) :
    changes? n t t' i = changes? n u u' i := by
  unfold changes? Table.get?
  rcases h.rows.get? i with ⟨ht, hu⟩ | ⟨a, b, ht, hu, hab⟩
  · rw [ht, hu, Option.bind_none, Option.bind_none]
  · rcases h'.rows.get? i with ⟨ht', hu'⟩ | ⟨a', b', ht', hu', hab'⟩
    · rw [ht, hu, ht', hu', Option.bind_some, Option.bind_some, Option.map_none]
      rfl
    · rw [ht, hu, ht', hu', Option.bind_some, Option.bind_some, Option.map_some, Option.map_some,
        hn a b a' b' hab hab']

end Related

theorem oblivious_veiled [BEq E] [Regular E] [Entity.Discreet E] :
    Oblivious (E := E) Entity.Veiled (List.Forall₂ (Entity.VeiledEntries E)) where
  alias?_eq h := h.alias?_eq
  withAlias s h := h.withAlias s
  isEnabled_eq h := Entity.Discreet.isEnabled_eq _ _ h
  get?_eq h key hkey name hname := h.get?_eq (Entity.Discreet.public_key key hkey name hname)
  validate_eq h := h.validate_eq
  names_eq h := Entity.names_of_veiledEntries h
  write _ h hupdates := h.write hupdates

end Table

namespace MqttClient

/-- The same client, or two that differ in nothing but their passwords, each of which has at most
256 characters. -/
def SameButPassword (a b : MqttClient) : Prop :=
  a = b ∨ { a with password := b.password } = b ∧
    a.password.length ≤ 256 ∧ b.password.length ≤ 256

/-- Requests for the same parameters with the same texts, except that two texts may be given for the
password, each of at most 256 characters. -/
def SameTexts (updates updates' : Updates) : Prop :=
  List.Forall₂ (fun p q => p.1 = q.1 ∧ (p.2 = q.2 ∨ p.1 = "Password" ∧
    p.2.length ≤ 256 ∧ q.2.length ≤ 256)) updates updates'

instance : Entity.Discreet MqttClient where
  public_alias := by decide
  public_mode := by decide
  public_key := by decide
  isEnabled_eq _ _ _ := rfl

theorem accepts_password {s : String} :
    (Shape.text 256).kind.Accepts (.text s) ↔ s.length ≤ 256 := by
  simp [Kind.Accepts, Shape.kind, Kind.misfit?]

theorem veiled_iff {a b : MqttClient} : Entity.Veiled a b ↔ SameButPassword a b := by
  have hchildren : (Entity.parts a).2 = (Entity.parts b).2 ↔ a.subscriptions = b.subscriptions :=
    ⟨congrArg Prod.fst, congrArg (·, ())⟩
  rw [Entity.Veiled, hchildren]
  cases a
  cases b
  simp only [SameButPassword, Entity.record, Entity.parts, Entity.fields,
    Record.Veiled, Field.Veils, Field.rw, Field.ro, Field.gated, Field.notifying, Field.hidden,
    Shape.value, Value.boolean.injEq, Value.text.injEq, Value.unsigned.injEq, Vocabulary.word_inj,
    UInt32.toNat_inj, Bool.false_eq_true, false_and, or_false, true_and, and_true,
    accepts_password, MqttClient.mk.injEq]
  tauto

theorem veiledEntries_of_sameTexts {updates updates' : Updates} (h : SameTexts updates updates') :
    List.Forall₂ (Entity.VeiledEntries MqttClient) updates updates' := by
  refine List.Forall₂.imp (fun p q hpq => ⟨hpq.1, hpq.2.imp_right ?_⟩) h
  rintro ⟨hname, hp, hq⟩
  rw [hname]
  exact ⟨_, rfl, rfl, _, _, rfl, accepts_password.2 hp, rfl, accepts_password.2 hq⟩

theorem oblivious_sameButPassword : Table.Oblivious SameButPassword SameTexts := by
  have hrows : (SameButPassword : MqttClient → MqttClient → Prop) = Entity.Veiled :=
    funext fun _ => funext fun _ => propext veiled_iff.symm
  rw [hrows]
  exact { Table.oblivious_veiled with
    names_eq := fun h => Entity.names_of_veiledEntries (veiledEntries_of_sameTexts h)
    write := fun origin h hupdates => h.write (veiledEntries_of_sameTexts hupdates) }

/-- Passwords do not flow to readers. Take two clients, or two tables of clients, that are the same
but for passwords of at most 256 characters, and do the same to both except for giving them other
such passwords. Every request and every operation is answered alike, all that is read afterwards is
the same, changes that are to be reported included, and both are still the same but for
passwords. -/
theorem password_noninterference :
    (∀ (a b : MqttClient) (made made' : List (Origin × Updates)), SameButPassword a b →
      List.Forall₂ (fun p q => p.1 = q.1 ∧ SameTexts p.2 q.2) made made' →
      (Entity.requests a made).1 = (Entity.requests b made').1 ∧
        Entity.texts (Entity.requests a made).2 = Entity.texts (Entity.requests b made').2 ∧
        (∀ n : Notification MqttClient, n.changes a (Entity.requests a made).2 =
          n.changes b (Entity.requests b made').2) ∧
        SameButPassword (Entity.requests a made).2 (Entity.requests b made').2) ∧
    ∀ (t u : Table MqttClient) (ops ops' : List (Table.Op MqttClient)),
      Table.Related SameButPassword t u →
      List.Forall₂ (Table.Op.Paired SameButPassword SameTexts) ops ops' →
      t.answers ops = u.answers ops' ∧
        Table.ReadsAlike (t.run ops) (u.run ops') ∧
        (∀ n i, Table.changes? n t (t.run ops) i = Table.changes? n u (u.run ops') i) ∧
        Table.Related SameButPassword (t.run ops) (u.run ops') := by
  have hchanges : ∀ (n : Notification MqttClient) (a b a' b' : MqttClient), SameButPassword a b →
      SameButPassword a' b' → n.changes a a' = n.changes b b' := by
    intro n a b a' b' hab hab'
    exact (veiled_iff.2 hab).changes_eq (veiled_iff.2 hab') n
  constructor
  · intro a b made made' hab hmade
    obtain ⟨hanswers, hafter⟩ := oblivious_sameButPassword.requests hab hmade
    exact ⟨hanswers, (veiled_iff.2 hafter).texts_eq, fun n => hchanges n _ _ _ _ hab hafter, hafter⟩
  · intro t u ops ops' htu hops
    obtain ⟨hanswers, hafter⟩ := htu.run oblivious_sameButPassword hops
    refine ⟨hanswers, ?_, fun n => htu.changes?_eq hafter (hchanges n), hafter⟩
    exact hafter.readsAlike oblivious_sameButPassword fun a b hab => (veiled_iff.2 hab).texts_eq

/-- Two clients with different passwords, by themselves and as rows, which are given different
passwords again. -/
theorem password_noninterference_changed :
    let a : MqttClient := { password := "old" }
    let b : MqttClient := { password := "1234" }
    let updates : Updates := [("Password", "new"), ("Name", "home")]
    let updates' : Updates := [("Password", "4321"), ("Name", "home")]
    let t : Table MqttClient := Table.empty.run [.add a, .write .first .controller updates]
    let u : Table MqttClient := Table.empty.run [.add b, .write .first .controller updates']
    Entity.texts (Entity.requests a [(.controller, updates)]).2 =
        Entity.texts (Entity.requests b [(.controller, updates')]).2 ∧
      Table.ReadsAlike t u ∧
      (t.get? .first).map password = some "new" ∧ (u.get? .first).map password = some "4321" := by
  intro a b updates updates' t u
  have hab : SameButPassword a b := .inr ⟨rfl, by decide, by decide⟩
  have hupdates : SameTexts updates updates' :=
    .cons ⟨rfl, .inr ⟨rfl, by decide, by decide⟩⟩ (.cons ⟨rfl, .inl rfl⟩ .nil)
  obtain ⟨-, htexts, -, -⟩ := password_noninterference.1 a b [(.controller, updates)]
    [(.controller, updates')] hab (.cons ⟨rfl, hupdates⟩ .nil)
  obtain ⟨-, hreads, -, -⟩ := password_noninterference.2 .empty .empty
    [.add a, .write .first .controller updates] [.add b, .write .first .controller updates']
    ⟨.nil, fun _ => rfl, rfl, rfl⟩ (.cons (.add hab) (.cons (.write _ _ hupdates) .nil))
  exact ⟨htexts, hreads, by decide, by decide⟩

end MqttClient
end Cwmp
