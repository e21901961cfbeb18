import Scheduling.Proofs.Settings.Environment
import Scheduling.Proofs.Wire.Parts
import Scheduling.Wire.Config

/-!
# Configurations from documents and from variables

A configuration is read from a document, where its fields stand in any order between others, or from
variables, which hold their numbers in decimal between white space. The two readers have nothing in
common: a document gives the fields names of its own, is read field by field into a draft, and has
integers in the notation of documents. They agree (`decodeText_eq_ofLookup`): given the same numbers
for the same fields, both give the defaults with these numbers in their places.
-/

namespace Scheduling.Config

open Wire (configLayout)

/-- The text is of a document that holds the assigned numbers under the names of their fields, and
nothing for the other fields; fields that configurations do not have may hold anything. -/
def IsDocument (assigned : ConfigField → Option UInt64) (text : String) : Prop :=
  ∃ fields, configLayout.Mixes (fun field => (assigned field).map fun n => .ofInt n.toNat) fields ∧
    (Json.record fields).HasText text.toList

/-- The variables of the assigned fields are set to texts that denote their numbers, and those of
the other fields are unset. -/
def AreVariables (assigned : ConfigField → Option UInt64) (env : String → Option String) :
    Prop :=
  ∀ field, match assigned field with
    | some n => ∃ text, env field.envName = some text ∧ Decimal.Denotes text n
    | none => env field.envName = none

/-- The defaults, overridden by the assigned numbers. -/
def override (assigned : ConfigField → Option UInt64) : Config :=
  ofFields fun field => (assigned field).getD field.default

variable {assigned : ConfigField → Option UInt64}

/-- A field that is assigned has its number, and another its default. -/
theorem get_override (field : ConfigField) :
    (override assigned).get field = (assigned field).getD field.default := by
  cases field <;> rfl

/-- A document of some numbers is read as the defaults overridden by them. -/
theorem decodeText_of_isDocument {text : String} (h : IsDocument assigned text) :
    Wire.config.decodeText text = .ok (override assigned) := by
  obtain ⟨fields, hmixes, htext⟩ := h
  have hdecode : configLayout.decode (.record fields)
      = .ok (configLayout.build fun field => (assigned field).getD field.default) := by
    refine hmixes.decode (fun field w hw => ?_) fun field hnone => ?_
    · obtain ⟨n, hn, rfl⟩ := Option.map_eq_some_iff.1 hw
      rw [hn]
      exact Wire.Codec.isFaithful_unsigned64.lawful n
    · rw [Option.map_eq_none_iff.1 hnone]
      rfl
  exact Wire.Codec.decodeText_eq_of_hasText htext hdecode

/-- Variables of some numbers are read as the defaults overridden by them. -/
theorem ofLookup_of_areVariables {env : String → Option String}
    (h : AreVariables assigned env) :
    ofLookup (fun field => env field.envName) = .ok (override assigned) := by
  rw [ofLookup_eq_ok_iff_gives]
  intro field
  have hfield := h field
  rw [get_override, Gives]
  -- a variable is set exactly if its field is assigned
  cases hassigned : assigned field with
  | none =>
    rw [hassigned] at hfield
    rw [hfield]
    rfl
  | some n =>
    rw [hassigned] at hfield
    obtain ⟨text, htext, hn⟩ := hfield
    rw [htext]
    exact hn

/-- Whichever fields are assigned, and whatever numbers, a document of them and variables of them
are read as the same configuration: the defaults, overridden by the numbers. -/
theorem decodeText_eq_ofLookup (assigned : ConfigField → Option UInt64) {text : String}
    {env : String → Option String} (htext : IsDocument assigned text)
    (hvariables : AreVariables assigned env) :
    Wire.config.decodeText text = .ok (override assigned) ∧
      ofLookup (fun field => env field.envName) = .ok (override assigned) :=
  ⟨decodeText_of_isDocument htext, ofLookup_of_areVariables hvariables⟩

/-- Two of the numbers, in a document between blanks and on both sides of an unknown field, and in
variables with white space, a sign and zeros around them. -/
theorem decodeText_eq_ofLookup_padded :
    let assigned : ConfigField → Option UInt64 := fun
      | .flappingThreshold => some 60000
      | .backoffMax => some 4000
      | _ => none
    let text := " \x7b \"backoff_max_ms\" : 4000 , \"note\" : [ null ] ," ++
      " \"flapping_threshold_ms\" : 60000 \x7d"
    let env : String → Option String := fun
      | "BERTH_FLAPPING_THRESHOLD_MS" => some "\t+060000"
      | "BERTH_FLAPPING_BACKOFF_MAX_MS" => some " 4000 "
      | _ => none
    IsDocument assigned text ∧ AreVariables assigned env ∧
      Wire.config.decodeText text = .ok ⟨60000, 60000, 1000, 4000⟩ ∧
      ofLookup (fun field => env field.envName) = .ok ⟨60000, 60000, 1000, 4000⟩ := by
  intro assigned text env
  have htext : IsDocument assigned text := by
    let note : Option String × Json := (some "note", .list [.null])
    let fields : List (Option String × Json) :=
      [(some "backoff_max_ms", .ofInt 4000), note, (some "flapping_threshold_ms", .ofInt 60000)]
    have hmixes : configLayout.Mixes
        (fun field => (assigned field).map fun n => .ofInt n.toNat) fields := by
      refine ⟨[note], fun field hfield => ?_, @List.perm_append_comm _ [_, note] [_]⟩
      obtain rfl := List.mem_singleton.1 hfield
      exact ⟨"note", rfl, by rintro (_ | _) <;> decide, rfl⟩
    have hwritable : (Json.record fields).IsWritable := by
      refine ⟨rfl, ?_⟩
      simp [fields, note, Json.ofInt, Json.tokenList, Json.itemTokens, Json.fieldTokens,
        Json.Token.IsProper, Numeral.isWellFormed_ofInt]
    have hspelt : text = String.ofList
        ((Json.record fields).tokenList.flatMap fun t => [' '] ++ t.spelling) := by cbv
    refine ⟨fields, hmixes, ?_⟩
    rw [hspelt, String.toList_ofList]
    exact hwritable.hasText_flatMap (fun _ => [' ']) (by simp [Json.AreBlanks, Json.isSpace])
  have henv : AreVariables assigned env := by
    rintro (_ | _)
    · exact ⟨_, rfl, Decimal.denotes_iff.2 (by decide)⟩
    · rfl
    · rfl
    · exact ⟨_, rfl, Decimal.denotes_iff.2 (by decide)⟩
  exact ⟨htext, henv, decodeText_eq_ofLookup assigned htext henv⟩

end Scheduling.Config
