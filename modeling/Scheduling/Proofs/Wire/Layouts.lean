import Scheduling.Proofs.Wire.Codecs
import Scheduling.Wire.Layout

/-!
# Faithful layouts

Reading a document fills a draft with the values of the fields that the document has, whatever their
order and whatever stands between them, as long as none of them occurs twice (`readFields_eq_fill`);
a list fills it with the values of the first fields (`readItems_eq_fill`). Finishing the draft puts
the fallbacks in place of what was left out (`finish_eq_ok`). So a document that holds, in any
order, something for some of the fields, and other fields besides, is read as the record with the
values that it holds and the fallbacks of the rest (`Mixes.decode`).

A layout is faithful if the codecs of its fields are, if a record is built from the values of its
fields, and if the value that is left out of a document is the one that stands for an absent field.
The codec of a faithful layout is faithful (`IsFaithful.toCodec`), since what it writes is such a
document without any other fields.
-/

namespace Scheduling.Wire.Layout

open Codec

variable {α : Type} {l : Layout α}

/-- What a layout needs in order that its records are read back. -/
structure IsFaithful (l : Layout α) : Prop where
  /-- Each field's value is read back. -/
  codec : ∀ f, (l.codec f).IsFaithful
  /-- A record is made of the values of its fields. -/
  build_get : ∀ a, l.build (l.get a) = a
  /-- What is left out is what an absent field stands for. -/
  fallback_of_isOmitted : ∀ f v, l.isOmitted f v = true → l.fallback f = some v

/-- The name of a field leads back to the field. -/
theorem field?_name (f : l.Field) : l.field? (l.name f) = some f :=
  find?_name l.nodup_names (l.mem_fields f)

/-- No field is declared twice. -/
theorem nodup_fields (l : Layout α) : l.fields.Nodup := l.nodup_names.of_map

/-- A draft with the values of some fields put in. -/
def Draft.fill (d : l.Draft) (v : (f : l.Field) → l.Slot f) (fs : List l.Field) : l.Draft :=
  fun f => if f ∈ fs then some (v f) else d f

/-- Filling a draft with the value of a field, then with those of others, fills it with them all. -/
theorem Draft.fill_put (d : l.Draft) (v : (f : l.Field) → l.Slot f) (f : l.Field)
    (fs : List l.Field) : (d.put f (v f)).fill v fs = d.fill v (f :: fs) := by
  funext g
  unfold Draft.fill Draft.put
  by_cases hg : f = g
  · subst hg
    simp
  · have hg' : g ≠ f := Ne.symm hg
    simp [hg, hg']

/-- The fields of the record that a document has, in the order of the document. -/
def known (l : Layout α) (fields : List (Option String × Json)) : List l.Field :=
  fields.filterMap fun field => field.1.bind l.field?

/-- A field of a document has a name. If the record has a field of this name, its value is read from
the document; if not, what stands there is spelt out. -/
def Offers (l : Layout α) (v : (f : l.Field) → l.Slot f) (field : Option String × Json) : Prop :=
  ∃ name, field.1 = some name ∧
    match l.field? name with
    | some f => (l.codec f).decode field.2 = .ok (v f)
    | none => field.2.isWhole = true

/-- Reading fields that have not been read, none of them twice, fills the draft with their values.
-/
theorem readFields_eq_fill {v : (f : l.Field) → l.Slot f} {fields : List (Option String × Json)}
    (h : ∀ field ∈ fields, l.Offers v field) (hnodup : (l.known fields).Nodup) {d : l.Draft}
    (hd : ∀ f ∈ l.known fields, d f = none) :
    l.readFields d fields = .ok (d.fill v (l.known fields)) := by
  -- what carries the induction is that no field to come has been read, so none is a duplicate
  induction fields generalizing d with
  | nil =>
    have hfill : d.fill v [] = d := by funext f; simp [Draft.fill]
    rw [known, List.filterMap_nil, readFields, hfill]
  | cons field rest ih =>
    obtain ⟨key, w⟩ := field
    obtain ⟨name, hkey, hoffer⟩ := h (key, w) (by simp)
    obtain rfl : key = some name := hkey
    have hrest : ∀ field ∈ rest, l.Offers v field := fun field hfield => h field (by simp [hfield])
    rcases hfield : l.field? name with _ | f
    · have hknown : l.known ((some name, w) :: rest) = l.known rest := by simp [known, hfield]
      rw [hknown] at hnodup hd ⊢
      rw [hfield] at hoffer
      rw [readFields, hfield]
      show (if w.isWhole then l.readFields d rest else _) = _
      rw [if_pos hoffer]
      exact ih hrest hnodup hd
    · have hknown : l.known ((some name, w) :: rest) = f :: l.known rest := by
        simp [known, hfield]
      rw [hknown] at hnodup hd ⊢
      obtain ⟨hf, hnodup⟩ := List.nodup_cons.1 hnodup
      have hput : ∀ g ∈ l.known rest, d.put f (v f) g = none := fun g hg => by
        have hne : f ≠ g := fun hfg => hf (hfg ▸ hg)
        rw [Draft.put, dif_neg hne]
        exact hd g (by simp [hg])
      have hnew : (d f).isSome = false := by rw [hd f (by simp)]; rfl
      have hdecode : (l.codec f).decode w = .ok (v f) := by simpa [hfield] using hoffer
      rw [readFields, hfield]
      simp only [hnew, hdecode, Bool.false_eq_true, if_false]
      show l.readFields (d.put f (v f)) rest = _
      rw [ih hrest hnodup hput, Draft.fill_put]

/-- Reading items, one for each of the first fields, fills the draft with their values if the other
fields may be left out. -/
theorem readItems_eq_fill {v : (f : l.Field) → l.Slot f} {present absent : List l.Field}
    {items : List Json}
    (hitems : List.Forall₂ (fun f w => (l.codec f).decode w = .ok (v f)) present items)
    (habsent : ∀ f ∈ absent, (l.fallback f).isSome = true) (position : ℕ) (d : l.Draft) :
    l.readItems position d (present ++ absent) items = .ok (d.fill v present) := by
  induction hitems generalizing position d with
  | nil =>
    have hfill : d.fill v [] = d := by funext f; simp [Draft.fill]
    rw [List.nil_append, hfill]
    induction absent generalizing position with
    | nil => rw [readItems]
    | cons f absent ih =>
      rw [readItems, if_pos (habsent f (by simp))]
      exact ih (fun g hg => habsent g (by simp [hg])) (position + 1)
  | @cons f w present items hdecode _ ih =>
    rw [List.cons_append, readItems, hdecode]
    show l.readItems (position + 1) (d.put f (v f)) (present ++ absent) items = _
    rw [ih, Draft.fill_put]

/-- A draft is finished if each field has been read or may be left out. -/
theorem finish_eq_ok {d : l.Draft} {v : (f : l.Field) → l.Slot f}
    (h : ∀ f, (d f).or (l.fallback f) = some (v f)) : l.finish d = .ok (l.build v) := by
  unfold finish
  split
  · next f hfind =>
    have hnone := List.find?_some hfind
    rw [h f] at hnone
    exact absurd hnone (by simp)
  · next hfind =>
    congr 2
    funext f
    exact Option.get_of_eq_some _ (h f)

/-- A draft with the values of some fields is finished if the others have these values when they are
left out. -/
theorem finish_fill {v : (f : l.Field) → l.Slot f} {fs : List l.Field}
    (h : ∀ f, f ∉ fs → l.fallback f = some (v f)) :
    l.finish (l.emptyDraft.fill v fs) = .ok (l.build v) := by
  refine finish_eq_ok fun f => ?_
  unfold Draft.fill emptyDraft
  by_cases hf : f ∈ fs
  · rw [if_pos hf, Option.some_or]
  · rw [if_neg hf, Option.none_or, h f hf]

/-- A record of fields is read as the values that it offers, and the others when they are left
out. -/
theorem decode_record {v : (f : l.Field) → l.Slot f} {fields : List (Option String × Json)}
    (hfields : ∀ field ∈ fields, l.Offers v field) (hnodup : (l.known fields).Nodup)
    (habsent : ∀ f, f ∉ l.known fields → l.fallback f = some (v f)) :
    l.decode (.record fields) = .ok (l.build v) := by
  have hread := readFields_eq_fill hfields hnodup (d := l.emptyDraft) fun _ _ => rfl
  show (l.readFields l.emptyDraft fields >>= l.finish) = _
  rw [hread]
  exact finish_fill habsent

/-- A list of items is read as the values of the first fields, and the others when they are left
out. -/
theorem decode_list {v : (f : l.Field) → l.Slot f} {present absent : List l.Field}
    {items : List Json} (hfields : l.fields = present ++ absent)
    (hitems : List.Forall₂ (fun f w => (l.codec f).decode w = .ok (v f)) present items)
    (habsent : ∀ f ∈ absent, l.fallback f = some (v f)) :
    l.decode (.list items) = .ok (l.build v) := by
  have hsome : ∀ f ∈ absent, (l.fallback f).isSome = true := fun f hf => by
    rw [habsent f hf]
    rfl
  have hread := readItems_eq_fill hitems hsome 0 l.emptyDraft
  show (l.readItems 0 l.emptyDraft l.fields items >>= l.finish) = _
  rw [hfields, hread]
  refine finish_fill fun f hf => habsent f ?_
  have hmem := l.mem_fields f
  rw [hfields, List.mem_append] at hmem
  exact hmem.resolve_left hf

/-! ## Fields in any order -/

/-- What stands in a document for a field of the record, under the field's name. -/
def entry (l : Layout α) (part : l.Field → Option Json) (f : l.Field) :
    Option (Option String × Json) :=
  (part f).map fun w => (some (l.name f), w)

/-- A field of a document that the record does not have. What stands there is spelt out, and may be
anything. -/
def IsUnknown (l : Layout α) (field : Option String × Json) : Prop :=
  ∃ name, field.1 = some name ∧ (∀ f, l.name f ≠ name) ∧ field.2.isWhole = true

/-- The fields of a document are what it holds for the fields of the record, and unknown fields, in
any order. -/
def Mixes (l : Layout α) (part : l.Field → Option Json) (fields : List (Option String × Json)) :
    Prop :=
  ∃ unknown, (∀ field ∈ unknown, l.IsUnknown field) ∧
    fields.Perm (l.fields.filterMap (l.entry part) ++ unknown)

/-- No field of the record has the name of an unknown field. -/
theorem field?_eq_none {name : String} (h : ∀ f, l.name f ≠ name) : l.field? name = none := by
  rw [field?, List.find?_eq_none]
  intro f _ hf
  exact h f (by simpa using hf)

variable {part : l.Field → Option Json} {fields : List (Option String × Json)}
  {v : (f : l.Field) → l.Slot f}

/-- Of mixed fields, those are known that the document holds something for. -/
theorem Mixes.known_perm (h : l.Mixes part fields) :
    (l.known fields).Perm (l.fields.filter fun f => (part f).isSome) := by
  obtain ⟨unknown, hunknown, hperm⟩ := h
  -- the entry of a field leads back to the field, and an unknown field to none
  have hentries : l.known (l.fields.filterMap (l.entry part))
      = l.fields.filter fun f => (part f).isSome := by
    unfold known
    rw [List.filterMap_filterMap, ← List.filterMap_eq_filter]
    congr 1
    funext f
    cases hpart : part f <;> simp [entry, hpart, field?_name, Option.guard]
  have hnone : l.known unknown = [] := by
    unfold known
    rw [List.filterMap_eq_nil_iff]
    intro field hfield
    obtain ⟨name, hname, hno, -⟩ := hunknown field hfield
    rw [hname, Option.bind_some, field?_eq_none hno]
  have hknown : l.known (l.fields.filterMap (l.entry part) ++ unknown)
      = l.fields.filter fun f => (part f).isSome := by
    rw [known, List.filterMap_append, ← known, ← known, hentries, hnone, List.append_nil]
  exact (hperm.filterMap _).trans (.of_eq hknown)

/-- Mixed fields offer what is read from what the document holds for the record's fields. -/
theorem Mixes.offers (h : l.Mixes part fields)
    (hv : ∀ f w, part f = some w → (l.codec f).decode w = .ok (v f)) :
    ∀ field ∈ fields, l.Offers v field := by
  obtain ⟨unknown, hunknown, hperm⟩ := h
  intro field hfield
  obtain hentry | hextra := List.mem_append.1 (hperm.mem_iff.1 hfield)
  · obtain ⟨f, -, hf⟩ := List.mem_filterMap.1 hentry
    obtain ⟨w, hw, rfl⟩ := Option.map_eq_some_iff.1 hf
    refine ⟨l.name f, rfl, ?_⟩
    rw [field?_name]
    exact hv f w hw
  · obtain ⟨name, hname, hno, hwhole⟩ := hunknown field hextra
    refine ⟨name, hname, ?_⟩
    rw [field?_eq_none hno]
    exact hwhole

/-- A record of mixed fields is read as the values that are read from what it holds for its fields,
and the fallbacks of those that it holds nothing for. -/
theorem Mixes.decode (h : l.Mixes part fields)
    (hsome : ∀ f w, part f = some w → (l.codec f).decode w = .ok (v f))
    (hnone : ∀ f, part f = none → l.fallback f = some (v f)) :
    l.decode (.record fields) = .ok (l.build v) := by
  have hknown := h.known_perm
  refine decode_record (h.offers hsome) ?_ fun f hf => hnone f ?_
  · rw [hknown.nodup_iff]
    exact l.nodup_fields.filter _
  · rw [hknown.mem_iff, List.mem_filter] at hf
    simpa [l.mem_fields f] using hf

/-! ## Written records -/

/-- What is written for a field of a record, if it is written. -/
def writtenPart (l : Layout α) (a : α) (f : l.Field) : Option Json :=
  if l.isOmitted f (l.get a f) then none else some ((l.codec f).encode (l.get a f))

/-- What is written for a field is its value, unless this is left out. -/
theorem writtenPart_eq_some_iff {a : α} {f : l.Field} {w : Json} :
    l.writtenPart a f = some w ↔
      l.isOmitted f (l.get a f) = false ∧ (l.codec f).encode (l.get a f) = w := by
  unfold writtenPart
  cases l.isOmitted f (l.get a f) <;> simp

/-- Nothing is written for a field exactly if its value is left out. -/
theorem writtenPart_eq_none_iff {a : α} {f : l.Field} :
    l.writtenPart a f = none ↔ l.isOmitted f (l.get a f) = true := by
  unfold writtenPart
  cases l.isOmitted f (l.get a f) <;> simp

/-- A record is written as the record of what is written for its fields, and no others. -/
theorem exists_mixes_encode (l : Layout α) (a : α) :
    ∃ fields, l.encode a = .record fields ∧ l.Mixes (l.writtenPart a) fields := by
  refine ⟨_, rfl, [], by simp, .of_eq ?_⟩
  rw [List.append_nil]
  -- to write what is not left out is to drop what nothing is written for, whatever the fields are
  generalize l.fields = fs
  induction fs with
  | nil => rfl
  | cons f fs ih => cases hf : l.isOmitted f (l.get a f) <;> simp [entry, writtenPart, hf, ih]

/-- The codec of a faithful layout is faithful. -/
theorem IsFaithful.toCodec (h : l.IsFaithful) : l.toCodec.IsFaithful where
  lawful a := by
    obtain ⟨fields, hencode, hmixes⟩ := l.exists_mixes_encode a
    have hdecode : l.decode (.record fields) = .ok (l.build (l.get a)) := by
      refine hmixes.decode (fun f w hw => ?_) fun f hnone => ?_
      · obtain ⟨-, rfl⟩ := writtenPart_eq_some_iff.1 hw
        exact (h.codec f).lawful (l.get a f)
      · exact h.fallback_of_isOmitted f _ (writtenPart_eq_none_iff.1 hnone)
    show l.decode (l.encode a) = .ok a
    rw [hencode, hdecode, h.build_get]
  writable a := Json.isWritable_record fun field hfield => by
    obtain ⟨f, -, rfl⟩ := List.mem_map.1 hfield
    exact ⟨rfl, (h.codec f).writable (l.get a f)⟩

/-- No record is written as `null`. -/
theorem encode_ne_null (a : α) : l.toCodec.encode a ≠ .null := nofun

end Scheduling.Wire.Layout
