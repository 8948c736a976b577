import Cwmp.Proofs.Entity.Request
import Cwmp.Proofs.Net.MacGrammar
import Cwmp.Proofs.Objects.Regular
import Cwmp.Proofs.Table.Violations

/-! # Texts of MAC addresses

A parameter that holds a MAC address takes any of the texts that denote it, in whichever way the
text comes. The parameter is read, compared with that of another row and written to documents in one
text only, in which the device writes the address.
-/
namespace Cwmp

open Text

/-- A record has one member for a field, which says what the parameter reads as. -/
theorem Record.exists_member {fields : List Field} (r : Record fields) {f : Field}
    (hf : f ∈ fields) (hnodup : (fields.map (·.name)).Nodup) : ∃ a : f.shape.Carrier,
      get? f.name fields r = some (f.shape.value a) ∧
        ∀ d, (.name f.name, d) ∈ encode fields r ↔ d = f.shape.encode a := by
  induction fields with
  | nil => cases hf
  | cons g fields ih =>
    obtain ⟨b, r⟩ := r
    rw [List.map_cons, List.nodup_cons] at hnodup
    rcases List.mem_cons.1 hf with rfl | hf
    · refine ⟨b, by simp [get?], fun d => ?_⟩
      rw [encode, List.mem_cons]
      constructor
      · rintro (heq | hmem)
        · exact (Prod.mk.inj heq).2
        · exact absurd (name_mem_of_mem (keys_encode r) hmem) hnodup.1
      · rintro rfl
        exact .inl rfl
    · have hne : g.name ≠ f.name := fun heq => hnodup.1 (heq ▸ List.mem_map_of_mem hf)
      obtain ⟨a, hget, hmember⟩ := ih r hf hnodup.2
      refine ⟨a, by simpa [get?, hne] using hget, fun d => ?_⟩
      simp [encode, Ne.symm hne, hmember]

/-- A text that denotes an address, or the empty text, which stands for none. -/
def Mac.Admits (s : String) : Prop :=
  s = "" ∨ ∃ a, read s = some a

namespace Entity

variable {E : Type} [Entity E]

/-- What a reader gets of the parameter `f` of an object, and the one member that a document has of
it, are the text of the address, or the empty text if there is none. -/
structure Shows (e : E) (f : Field) (address : Option Mac) : Prop where
  get_eq : get? e f.name = some (.text (address.elim "" Mac.write))
  document : ∃ members, encode e = .table members ∧
    ∀ d, (.name f.name, d) ∈ members ↔ d = .text (address.elim "" Mac.write)

variable (E) in
/-- An object that took the text `s` as the parameter `f` shows the address `a`. -/
structure TakesAs (f : Field) (s : String) (a : Mac) : Prop where
  stores : ∀ e e' : E, put e f.name (.text s) = .ok e' → Shows e' f (some a)
  /-- The text of a member of a document, next to any other members. -/
  loads : ∀ (d : Doc) (members : List (Key × Doc)) (e : E), d.asText = .ok s →
    (.name f.name, d) ∈ members → decode (.table members) = .ok e → Shows e f (some a)
  /-- The text of an item in the place of the parameter, where members have no names. -/
  loads_item : ∀ (d : Doc) (items : List Doc) (e : E), d.asText = .ok s →
    (f.name, d) ∈ (memberNames E).zip items → decode (.list items) = .ok e → Shows e f (some a)
  /-- The text of an entry of a request, next to any other entries. -/
  writes : ∀ (origin : Origin) (updates : Updates) (e e' : E), (f.name, s) ∈ updates →
    write origin updates e = .ok e' → Shows e' f (some a)

variable (E) in
/-- Of any address that the parameter `f` may hold one text only is seen. -/
structure OneText (f : Field) : Prop where
  shows : ∀ e : E, ∃ address, Shows e f address
  takes : ∀ s a, Mac.read s = some a → TakesAs E f s a
  stores_iff : ∀ (e : E) s, (∃ e', put e f.name (.text s) = .ok e') ↔ Mac.Admits s
  loads_iff : ∀ d s, d.asText = .ok s →
    ((∃ e : E, decode (.table [(.name f.name, d)]) = .ok e) ↔ Mac.Admits s)
  writes_iff : ∀ s, (∃ e : E, ofTexts [(f.name, s)] = .ok e) ↔ Mac.Admits s
  get_eq_iff : ∀ (e e' : E) a b, Shows e f a → Shows e' f b →
    (get? e f.name = get? e' f.name ↔ a = b)
  /-- A unique key with the parameter compares the addresses, and the rest of it as before. -/
  clashes_iff : ∀ (e e' : E) a b key, Shows e f a → Shows e' f b → f.name ∈ key →
    (Table.clashes [e'] e key = true ↔
      a = b ∧ Table.clashes [e'] e (key.filter (· ≠ f.name)) = true)

end Entity

namespace Shape

variable {s : String}

theorem store_mac {a : Mac} (h : Mac.read s = some a) :
    mac.store (.text s) = .ok (some a : Option Mac) := by
  have hne : s ≠ "" := by
    rintro rfl
    cases Mac.read_empty.symm.trans h
  simp only [store, readAddress, hne, ↓reduceIte, h]
  rfl

theorem exists_store_mac_iff : (∃ c, mac.store (.text s) = .ok c) ↔ Mac.Admits s := by
  rw [Mac.Admits, ← Option.isSome_iff_exists]
  exact exists_readAddress_iff

theorem decode_mac_eq_ok_iff {d : Doc} (hd : d.asText = .ok s) {c : mac.Carrier} :
    mac.decode d = .ok c ↔ mac.store (.text s) = .ok c := by
  have hok : ∀ b : mac.Carrier, (Except.ok b : Except LoadFault _) = .ok c ↔
      (Except.ok b : Except StoreFault _) = .ok c := fun b =>
    ⟨fun h => congrArg Except.ok (Except.ok.inj h), fun h => congrArg Except.ok (Except.ok.inj h)⟩
  simp only [decode, hd, store, readAddress, Except.bind]
  split_ifs
  · exact hok none
  · cases Mac.read s with
    | none => exact iff_of_false (fun h => by cases h) fun h => by cases h
    | some a => exact hok (some a)

theorem accepts_mac_iff : mac.kind.Accepts (.text s) ↔ Mac.Admits s := by
  rw [Kind.accepts_iff, Mac.Admits, ← Option.isSome_iff_exists]
  constructor
  · rintro ⟨⟩
    assumption
  · exact .mac

end Shape

namespace Entity

variable {E : Type} [Entity E] {f : Field}

theorem Shows.get_eq_iff {e e' : E} {a b : Option Mac} (h : Shows e f a) (h' : Shows e' f b) :
    get? e f.name = get? e' f.name ↔ a = b := by
  rw [h.get_eq, h'.get_eq, Option.some.injEq]
  exact (Shape.value_injective .mac).eq_iff

theorem Shows.clashes_iff {e e' : E} {a b : Option Mac} {key : List String} (h : Shows e f a)
    (h' : Shows e' f b) (hkey : f.name ∈ key) : Table.clashes [e'] e key = true ↔
      a = b ∧ Table.clashes [e'] e (key.filter (· ≠ f.name)) = true := by
  simp only [Table.clashes_iff, List.mem_singleton, exists_eq_left, ← h.get_eq_iff h',
    List.mem_filter, decide_eq_true_eq]
  constructor
  · rintro ⟨henabled, henabled', hsame⟩
    exact ⟨hsame _ hkey, henabled, henabled', fun p hp => hsame p hp.1⟩
  · rintro ⟨hget, henabled, henabled', hsame⟩
    refine ⟨henabled, henabled', fun p hp => ?_⟩
    by_cases hname : p = f.name
    · rw [hname, hget]
    · exact hsame p ⟨hp, hname⟩

variable [BEq E] [Regular E]

theorem exists_member (hf : f ∈ fields E) (e : E) : ∃ a : f.shape.Carrier,
    get? e f.name = some (f.shape.value a) ∧ ∃ members, encode e = .table members ∧
      ∀ d, (.name f.name, d) ∈ members ↔ d = f.shape.encode a := by
  obtain ⟨a, hget, hmember⟩ := (record e).exists_member hf (nodup_fieldNames E)
  obtain ⟨-, -, hdisjoint⟩ := List.nodup_append.1 (Regular.nodup_memberNames (E := E))
  refine ⟨a, hget, Record.encode (fields E) (record e) ++ Children.encode (children E) (parts e).2,
    rfl, fun d => ?_⟩
  rw [List.mem_append, hmember]
  refine or_iff_left fun hd => ?_
  have hname := name_mem_of_mem (Children.keys_encode _) hd
  exact hdisjoint _ (List.mem_map_of_mem hf) _ hname rfl

theorem exists_shows (hf : f ∈ fields E) (hshape : f.shape = .mac) (e : E) :
    ∃ address, Shows e f address := by
  obtain ⟨a, hget, hmember⟩ := exists_member hf e
  obtain ⟨name, shape, access, notify, gates, secret⟩ := f
  obtain rfl : shape = .mac := hshape
  exact ⟨a, hget, hmember⟩

theorem shows_of_get? (hf : f ∈ fields E) (hshape : f.shape = .mac) {e : E} {a : Option Mac}
    (h : get? e f.name = some (Shape.mac.value a)) : Shows e f a := by
  obtain ⟨b, hb⟩ := exists_shows hf hshape e
  have heq : b = a := Shape.value_injective .mac (Option.some.inj (hb.get_eq.symm.trans h))
  exact heq ▸ hb

/-- A text of an address leads to the address, in whichever way it comes. -/
theorem takesAs (hf : f ∈ fields E) (hshape : f.shape = .mac) {s : String} {a : Mac}
    (h : Mac.read s = some a) : TakesAs E f s a := by
  have hfield : field? E f.name = some f := field?_name hf
  obtain ⟨name, shape, access, notify, gates, secret⟩ := f
  obtain rfl : shape = .mac := hshape
  have hstore := Shape.store_mac h
  have hloaded : ∀ (e : E) (d : Doc), d.asText = .ok s →
      (∃ c, Shape.mac.decode d = .ok c ∧ get? e name = some (Shape.mac.value c)) →
        get? e name = some (Shape.mac.value (some a)) := by
    rintro e d hd ⟨c, hc, hget⟩
    obtain rfl := Except.ok.inj (hstore.symm.trans ((Shape.decode_mac_eq_ok_iff hd).1 hc))
    exact hget
  constructor
  · intro e e' hput
    obtain ⟨c, hc, hget⟩ := exists_store_of_put hput hfield
    obtain rfl := Except.ok.inj (hstore.symm.trans hc)
    exact shows_of_get? hf rfl hget
  · intro d members e hd hmem hdecode
    have hread := (reads_of_loadMembers hdecode).get?_of_mem hfield hmem
    exact shows_of_get? hf rfl (hloaded e d hd hread)
  · intro d items e hd hmem hdecode
    have hread := get?_loadItems_of_mem hdecode Regular.nodup_memberNames hfield hmem
    exact shows_of_get? hf rfl (hloaded e d hd hread)
  · intro origin updates e e' hmem hwrite
    obtain ⟨hstages, hblames⟩ := write_eq_ok _ hwrite
    have hget := hstages.get?_of_mem hblames hmem hfield (v := .text s) rfl
    have hcanonical : Shape.mac.canonical (.text s) = Shape.mac.value (some a) := by
      simp [Shape.canonical, Shape.value, h]
    exact shows_of_get? hf rfl (hcanonical ▸ hget)

theorem oneText (hf : f ∈ fields E) (hshape : f.shape = .mac) : OneText E f := by
  have hfield : field? E f.name = some f := field?_name hf
  constructor
  · exact exists_shows hf hshape
  · exact fun s a h => takesAs hf hshape h
  · intro e s
    rw [exists_put_iff e hfield, hshape, Shape.exists_store_mac_iff]
  · intro d s hd
    rw [exists_decode_single_iff hfield, hshape, ← Shape.exists_store_mac_iff]
    exact exists_congr fun c => Shape.decode_mac_eq_ok_iff hd
  · intro s
    have hread : f.shape.kind.read s = .ok (.text s) := by
      rw [hshape]
      rfl
    rw [exists_ofTexts_single_iff hfield hread, hshape, Shape.accepts_mac_iff]
  · exact fun e e' a b h h' => h.get_eq_iff h'
  · exact fun e e' a b key h h' hkey => h.clashes_iff h' hkey

/-- The grammar of MAC addresses. A text denotes an address if and only if twelve hexadecimal
digits, which are as many bytes, are left of it without colons and dashes, and these are the halves
of the octets. The device writes them in lower case with colons between pairs, which is read back.
Texts denote the same address if and only if they have the same digits up to case, and of a
parameter one text is seen for each address. Under a mask addresses agree if and only if they do on
every bit that is set in it. -/
theorem macTexts_exact :
    (∀ s : String,
      ((∃ a, Mac.read s = some a) ↔
        (Mac.bare s).length = 12 ∧ ∀ c ∈ Mac.bare s, IsHexDigit c) ∧
      ((∃ a, Mac.read s = some a) ↔
        byteLength (Mac.bare s) = 12 ∧ ∀ c ∈ Mac.bare s, IsHexDigit c)) ∧
    (∀ (s : String) (a : Mac), Mac.read s = some a ↔ Mac.Spells s a) ∧
    (∀ (s : String) (a : Mac), Mac.read s = some a → a.write = Mac.normalText s) ∧
    (∀ a : Mac, Mac.read a.write = some a) ∧
    (∀ (s t : String) (a b : Mac), Mac.read s = some a → Mac.read t = some b →
      (a = b ↔ Mac.SameDigits s t)) ∧
    (∀ (E : Type) [Entity E] [BEq E] [Regular E] (f : Field), f ∈ fields E → f.shape = .mac →
      OneText E f) ∧
    ∀ mask a b : Mac, Octets.agree mask a b = true ↔
      ∀ i < 48, mask.bit i = true → a.bit i = b.bit i := by
  refine ⟨fun s => ⟨Mac.exists_read_iff, Mac.exists_read_iff_byteLength⟩,
    fun s a => Mac.read_eq_some_iff, fun s a h => Mac.write_of_read h, Mac.read_write,
    fun s t a b hs ht => Mac.eq_iff_sameDigits hs ht, ?_, fun mask a b => Octets.agree_iff_bit⟩
  intro E _ _ _ f hf hshape
  exact oneText hf hshape

/-- Two reservations for one address, of which the texts differ in their separators and in case. -/
theorem macTexts_exact_reservations :
    let f : Field := .rw "Chaddr" .mac
    let a : Mac := ⟨[0, 26, 43, 60, 77, 94], rfl⟩
    let b : Mac := ⟨[0, 26, 43, 255, 255, 255], rfl⟩
    let vendor : Mac := ⟨[255, 255, 255, 0, 0, 0], rfl⟩
    let e : StaticAddress := { enable := true, chaddr := some a }
    let e' : StaticAddress := { enable := true, aliasText := "printer", chaddr := some a }
    Mac.read "00-1A-2B-3C-4D-5E" = some a ∧ Mac.read "001a:2b3c4d5e-" = some a ∧
      Mac.SameDigits "00-1A-2B-3C-4D-5E" "001a:2b3c4d5e-" ∧ a.write = "00:1a:2b:3c:4d:5e" ∧
      TakesAs StaticAddress f "00-1A-2B-3C-4D-5E" a ∧ Table.clashes [e'] e ["Chaddr"] = true ∧
      ¬ (∃ c, Mac.read "00-1A-2B-3C-4D-5\u00e9" = some c) ∧ Octets.agree vendor a b = true := by
  intro f a b vendor e e'
  obtain ⟨hgrammar, -, hwrite, -, hsame, hone, hmask⟩ := macTexts_exact
  have hs : Mac.read "00-1A-2B-3C-4D-5E" = some a := by decide
  have ht : Mac.read "001a:2b3c4d5e-" = some a := by decide
  have hf : OneText StaticAddress f := hone StaticAddress f (by simp [f, fields]) rfl
  have he : Shows e f (some a) := shows_of_get? (by simp [f, fields]) rfl rfl
  have he' : Shows e' f (some a) := shows_of_get? (by simp [f, fields]) rfl rfl
  refine ⟨hs, ht, (hsame _ _ a a hs ht).1 rfl, (hwrite _ _ hs).trans (by decide),
    hf.takes _ _ hs, (hf.clashes_iff e e' _ _ _ he he' (by decide)).2 ⟨rfl, by decide⟩, ?_, ?_⟩
  · rw [(hgrammar _).1]
    exact fun h => absurd (h.2 '\u00e9' (by decide)) (by decide)
  · rw [hmask]
    decide

end Entity
end Cwmp
