import Mathlib.Data.List.Forall2
import Mathlib.Data.List.Nodup
import Scheduling.Proofs.Placement.Additivity
import Scheduling.Proofs.Text.ByteOrder
import Scheduling.Proofs.Wire.Presentations

/-!
# Value sets have one form

The values of an attribute or of a constraint are given as a list, in a program or in a document,
and kept as a set. All that is left of the list are its members (`SameMembers`): two lists with the
same members make the same attributes and constraints, and documents with either are read alike.
What is written of the set is the one list of its members that ascends in the order of their bytes
(`pairwise_bytes_lt`), so that there is one text. For the counts a value occurs in an attribute or
it does not, however often it was listed (`count_entries_ofListings`). `valueSet_canonical` puts
this together.
-/

namespace Scheduling

/-- Lists with the same members, in any order and repeated at will. -/
def SameMembers (xs ys : List String) : Prop := ∀ value, value ∈ xs ↔ value ∈ ys

variable {xs ys : List String} {name value text : String}

/-- The set of a list depends on the members of the list alone. -/
theorem SameMembers.ofList_eq (h : SameMembers xs ys) :
    SortedSet.ofList xs = SortedSet.ofList ys := by
  refine SortedSet.ext_mem fun value => ?_
  rw [SortedSet.mem_ofList, SortedSet.mem_ofList]
  exact h value

/-- So does the attribute with the values of a list. -/
theorem SameMembers.attribute_ofList_eq (h : SameMembers xs ys) :
    Attribute.ofList name xs = Attribute.ofList name ys := by
  rw [Attribute.ofList, h.ofList_eq]
  rfl

/-- So does the body that asks for a value of a list. -/
theorem SameMembers.ofValues_eq {negated : Bool} (h : SameMembers xs ys) :
    TaskConstraint.ofValues negated xs = TaskConstraint.ofValues negated ys := by
  rw [TaskConstraint.ofValues, h.ofList_eq]
  rfl

/-! ## The order of what is written -/

/-- The members of a set ascend in the order of their bytes. -/
theorem ValueSet.pairwise_bytes_lt (s : ValueSet) :
    s.toList.Pairwise fun a b => Text.bytes a < Text.bytes b :=
  s.ascending.imp Text.compare_eq_lt_iff_bytes_lt.1

/-- No member of a set is there twice. -/
theorem ValueSet.nodup_toList (s : ValueSet) : s.toList.Nodup :=
  s.pairwise_bytes_lt.imp fun {a b} hlt (heq : a = b) => List.lt_irrefl _ (heq ▸ hlt)

/-! ## Documents -/

namespace Wire

open Codec
open Json (ofString)

/-- The presentations of attributes: their values are a set. -/
def attributeForm : Form Attribute :=
  attributeLayout.Presents fun
    | .name => string.written
    | .values => .stringSet

/-- Attributes are read from their presentations. -/
theorem reads_hostAttribute : hostAttribute.Reads attributeForm :=
  isFaithful_attributeLayout.reads fun
    | .name => isFaithful_string.lawful.reads
    | .values => reads_stringSet

/-- From any text of an array of strings the set of them is read. -/
theorem stringSet_decodeText_of_hasText
    (htext : (Json.list (xs.map ofString)).HasText text.toList) :
    stringSet.decodeText text = .ok (SortedSet.ofList xs) :=
  decodeText_eq_of_hasText htext (stringSet_decode_list xs)

end Wire

/-! ## Hosts whose values are listed -/

/-- An attribute as it is given, its values in a list. -/
structure Listing where
  name : String
  values : List String

namespace Listing

/-- The attribute that is given. -/
def toAttribute (l : Listing) : Attribute := .ofList l.name l.values

/-- The same attribute is given, if with another list of its values. -/
def Same (l l' : Listing) : Prop := l.name = l'.name ∧ SameMembers l.values l'.values

/-- The host with the attributes that are given. -/
def host (listings : List Listing) : Host := listings.map toAttribute

variable {listings listings' : List Listing} {hosts hosts' : List (List Listing)}

/-- It makes no difference how the values of an attribute are listed. -/
theorem Same.toAttribute_eq {l l' : Listing} (h : l.Same l') : l.toAttribute = l'.toAttribute := by
  obtain ⟨hname, hvalues⟩ := h
  rw [toAttribute, hname, hvalues.attribute_ofList_eq]
  rfl

/-- Nor of the attributes of a host. -/
theorem host_eq (h : List.Forall₂ Same listings listings') : host listings = host listings' := by
  rw [host, host, ← List.forall₂_eq_eq_eq, List.forall₂_map_left_iff, List.forall₂_map_right_iff]
  exact h.imp fun _ _ hsame => hsame.toAttribute_eq

/-- Nor of those of several hosts. -/
theorem map_host_eq (h : List.Forall₂ (List.Forall₂ Same) hosts hosts') :
    hosts.map host = hosts'.map host := by
  rw [← List.forall₂_eq_eq_eq, List.forall₂_map_left_iff, List.forall₂_map_right_iff]
  exact h.imp fun _ _ hsame => host_eq hsame

/-- A listing counts for a value if this is among its values, and once however often it is. -/
theorem count_map_values (l : Listing) :
    (l.toAttribute.values.toList.map fun v => (l.name, v)).count (name, value) =
      if l.name = name ∧ value ∈ l.values then 1 else 0 := by
  have hnodup : (l.toAttribute.values.toList.map fun v => (l.name, v)).Nodup :=
    l.toAttribute.values.nodup_toList.map fun _ _ heq => (Prod.mk.inj heq).2
  rw [hnodup.count]
  refine if_congr ?_ rfl rfl
  simp [toAttribute, Attribute.ofList, and_comm]

/-- A host reports a value as often as it has attributes that list it. -/
theorem count_entries_host : (host listings).entries.count (name, value) =
    listings.countP fun l => l.name = name ∧ value ∈ l.values := by
  induction listings with
  | nil => rfl
  | cons l listings ih =>
    have hentries : (host (l :: listings)).entries =
        (l.toAttribute.values.toList.map fun v => (l.name, v)) ++ (host listings).entries := rfl
    rw [hentries, List.count_append, count_map_values, ih, List.countP_cons, Nat.add_comm]
    simp only [decide_eq_true_eq]

/-- The tally of a value is the number of attributes that list it. -/
theorem tally_map_host : Placement.tally (hosts.map host) name value =
    hosts.flatten.countP fun l => l.name = name ∧ value ∈ l.values := by
  induction hosts with
  | nil => rfl
  | cons listings hosts ih =>
    rw [List.map_cons, Placement.tally_cons, count_entries_host, ih, List.flatten_cons,
      List.countP_append]

end Listing

/-! ## All of it -/

open Wire Placement
open Json (ofString)

/-- Value sets have one form. Let two lists have the same members.

* The attributes with these values are equal, and so are the constraints to them, and each has one
  text.
* From an array of the one list and from an array of the other the same set is read, with one text;
  and whichever list stands in a document of an attribute or a constraint, it is read as either.
* The values that are written ascend strictly in the order of their bytes, none is there twice, and
  they are the members of the lists.
* Hosts may have been counted and a candidate be given, with any such lists for the values of any
  attributes. Then the count of a value is the number of attributes that list it, however often
  each does, and so the same; and every verdict is the same, whichever of the lists a constraint
  has. -/
theorem valueSet_canonical (h : SameMembers xs ys) :
    (∀ name, Attribute.ofList name xs = .ofList name ys ∧
        hostAttribute.encodeText (.ofList name xs) = hostAttribute.encodeText (.ofList name ys)) ∧
      (∀ negated, TaskConstraint.ofValues negated xs = .ofValues negated ys ∧
        taskConstraint.encodeText (.ofValues negated xs) =
          taskConstraint.encodeText (.ofValues negated ys)) ∧
      (∀ {text text' : String}, (Json.list (xs.map ofString)).HasText text.toList →
        (Json.list (ys.map ofString)).HasText text'.toList →
          Codec.stringSet.decodeText text = .ok (.ofList xs) ∧
            Codec.stringSet.decodeText text' = .ok (.ofList xs) ∧
            Codec.stringSet.encodeText (.ofList xs) = Codec.stringSet.encodeText (.ofList ys)) ∧
      (∀ {name text : String}, attributeForm.HasText (.ofList name ys) text →
        hostAttribute.decodeText text = .ok (.ofList name xs)) ∧
      (∀ {negated : Bool} {text : String}, taskConstraintForm.HasText (.ofValues negated ys) text →
        taskConstraint.decodeText text = .ok (.ofValues negated xs)) ∧
      (∃ values : List String,
        (values.Pairwise fun a b => Text.bytes a < Text.bytes b) ∧ values.Nodup ∧
          (∀ value, value ∈ values ↔ value ∈ xs) ∧
          Codec.stringSet.encodeText (.ofList xs) =
            (Json.list (values.map ofString)).compactText ∧
          (∀ name, hostAttribute.encodeText (.ofList name xs) =
            (Json.record [(some "name", ofString name),
              (some "values", .list (values.map ofString))]).compactText) ∧
          ∀ negated, taskConstraint.encodeText (.ofValues negated xs) =
            (Json.record [(some "value", .record [(some "negated", .bool negated),
              (some "values", .list (values.map ofString))])]).compactText) ∧
      ∀ {job job' : JobKey} {a a' : JobAggregate} {hosts hosts' : List (List Listing)}
        {candidate candidate' : List Listing},
        JobAggregate.Built job a (hosts.map Listing.host) →
        JobAggregate.Built job' a' (hosts'.map Listing.host) →
        List.Forall₂ (List.Forall₂ Listing.Same) hosts hosts' →
        List.Forall₂ Listing.Same candidate candidate' →
          (∀ name value, a'.count name value = a.count name value ∧ a.count name value =
            UInt64.ofNat (hosts.flatten.countP fun l => l.name = name ∧ value ∈ l.values)) ∧
          (∀ c, veto a'.count (Listing.host candidate') c =
            veto a.count (Listing.host candidate) c) ∧
          ∀ name negated limit,
            veto a'.count (Listing.host candidate')
                ⟨name, { TaskConstraint.ofValues negated ys with limit := limit }⟩ =
              veto a.count (Listing.host candidate)
                ⟨name, { TaskConstraint.ofValues negated xs with limit := limit }⟩ := by
  refine ⟨fun name => ?_, fun negated => ?_, fun htext htext' => ?_, fun htext => ?_,
    fun htext => ?_, ?_, ?_⟩
  · rw [h.attribute_ofList_eq]
    exact ⟨rfl, rfl⟩
  · rw [h.ofValues_eq]
    exact ⟨rfl, rfl⟩
  · refine ⟨stringSet_decodeText_of_hasText htext, ?_, ?_⟩
    · rw [stringSet_decodeText_of_hasText htext', h.ofList_eq]
    · rw [h.ofList_eq]
  · rw [h.attribute_ofList_eq]
    exact reads_hostAttribute.decodeText_eq htext
  · rw [h.ofValues_eq]
    exact reads_taskConstraint.decodeText_eq htext
  · let set : ValueSet := .ofList xs
    exact ⟨set.toList, set.pairwise_bytes_lt, set.nodup_toList, fun _ => SortedSet.mem_ofList, rfl,
      fun _ => rfl, fun _ => rfl⟩
  · intro job job' a a' hosts hosts' candidate candidate' ha ha' hhosts hcandidate
    have hcount : a'.count = a.count := by
      funext name value
      rw [ha.count_eq, ha'.count_eq, Listing.map_host_eq hhosts]
    have hhost : Listing.host candidate' = Listing.host candidate :=
      (Listing.host_eq hcandidate).symm
    rw [hcount, hhost]
    refine ⟨fun name value => ⟨rfl, ?_⟩, fun _ => rfl, fun name negated limit => ?_⟩
    · rw [ha.count_eq, Listing.tally_map_host]
    · rw [h.ofValues_eq]

/-- Two letters, one of them listed twice: an instance on a host that lists them counts once for it.
In the order of their bytes the other one comes first, which in UTF-16 it would not. -/
theorem valueSet_canonical_letters :
    let xs := ["𝐚", "ｚ", "𝐚"]
    let ys := ["ｚ", "𝐚"]
    let a := JobAggregate.ofHosts Sample.job [Listing.host [⟨"rack", xs⟩]]
    let a' := JobAggregate.ofHosts Sample.job [Listing.host [⟨"rack", ys⟩]]
    SameMembers xs ys ∧ (SortedSet.ofList xs).toList = ys ∧
      hostAttribute.encodeText (.ofList "rack" xs) = hostAttribute.encodeText (.ofList "rack" ys) ∧
      a.count "rack" "𝐚" = 1 ∧
      veto a'.count (Listing.host [⟨"rack", ys⟩]) ⟨"rack", .ofValues true ys⟩ =
        veto a.count (Listing.host [⟨"rack", xs⟩]) ⟨"rack", .ofValues true xs⟩ := by
  intro xs ys a a'
  have hsame : SameMembers xs ys := fun value => by
    simp only [xs, ys, List.mem_cons, List.not_mem_nil]
    tauto
  have ha : JobAggregate.Built Sample.job a ([[⟨"rack", xs⟩]].map Listing.host) := .ofHosts _
  have ha' : JobAggregate.Built Sample.job a' ([[⟨"rack", ys⟩]].map Listing.host) := .ofHosts _
  have hlistings : List.Forall₂ Listing.Same [⟨"rack", xs⟩] [⟨"rack", ys⟩] :=
    .cons ⟨rfl, hsame⟩ .nil
  obtain ⟨hattribute, -, -, -, -, -, hused⟩ := valueSet_canonical hsame
  obtain ⟨hcount, -, hveto⟩ := hused ha ha' (.cons hlistings .nil) hlistings
  refine ⟨hsame, by decide, (hattribute "rack").2, ?_, hveto "rack" true none⟩
  rw [(hcount "rack" "𝐚").2]
  rfl

end Scheduling
