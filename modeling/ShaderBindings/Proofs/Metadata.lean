/-
# Metadata in good shape

Metadata is written freely, and reading it refuses values of the wrong shape.  The shapes are listed
here entry by entry, and reading succeeds exactly on metadata that has them
(`Annotations.exists_ofMetadata?_iff`).  Every part of the reading has a lemma of its own, which
says when it succeeds; for the flags of the vendor there is also what they mean, told from what is
written (`Schema.Metadata.isRaised`).
-/
import ShaderBindings.Node.Admission
import ShaderBindings.Proofs.Fault

namespace ShaderBindings

open Fault

/-! ## Shapes of values -/

namespace Json

/-- A list of strings. -/
inductive IsTokenList : Json → Prop where
  | array {items : List Json} (strings : ∀ item ∈ items, ∃ s, item = .string s) :
      IsTokenList (.array items)

/-- A string, or nothing. -/
inductive IsText : Json → Prop where
  | null : IsText .null
  | string (s : String) : IsText (.string s)

/-- A value that tells yes or no, or nothing. -/
inductive IsFlag : Json → Prop where
  | null : IsFlag .null
  | bool (b : Bool) : IsFlag (.bool b)
  | number (n : Number) : IsFlag (.number n)

inductive IsConnectability : Json → Prop where
  | interfaceOnly : IsConnectability (.string "interfaceOnly")
  | standard : IsConnectability (.string "default")
  | empty : IsConnectability (.string "")

inductive IsDictionary : Json → Prop where
  | object (entries : List (String × Json)) : IsDictionary (.object entries)

end Json

/-! ## Metadata -/

namespace Schema.Metadata

/-- What the metadata has for the vendor. -/
def vendor? (m : Metadata) : Option Json :=
  (Dictionary.get? m "customData").bind fun v => v.member? "realitykit"

/-- The value of a key that the metadata has for the vendor. -/
def vendorEntry? (m : Metadata) (key : String) : Option Json :=
  m.vendor?.bind fun v => v.member? key

/-- The vendor raises a flag by `true` or by an integer other than zero. -/
def isRaised (m : Metadata) (key : String) : Bool :=
  match m.vendorEntry? key with
  | some (.bool b) => b
  | some (.number n) => n.int?.any fun i => i != 0
  | _ => false

/-- Every value of the metadata that has a meaning is of the right shape. -/
structure WellShaped (m : Metadata) : Prop where
  allowedTokens : ∀ v ∈ Dictionary.get? m "allowedTokens", v.IsTokenList
  /-- The other way to declare an enumeration counts only where the first one is missing. -/
  enumerated : Dictionary.get? m "allowedTokens" = none →
    ∀ v ∈ Dictionary.get? m "enum", v.IsTokenList ∨ ∃ s, v = .string s
  connectability : ∀ v ∈ Dictionary.get? m "connectability", v.IsConnectability
  displayName : ∀ v ∈ Dictionary.get? m "displayName", v.IsText
  vendor : ∀ v ∈ m.vendor?, v.IsDictionary
  unsupported : ∀ v ∈ m.vendorEntry? "unsupported", v.IsFlag
  deprecated : ∀ v ∈ m.vendorEntry? "deprecated", v.IsFlag
  availability : ∀ v ∈ m.vendorEntry? "availability", v.IsText

end Schema.Metadata

/-! ## Reading the parts -/

namespace Annotations

variable {metadata : Schema.Metadata} {key : String}

lemma tokens?_eq_ok_iff {v : Json} {tokens : List String} :
    tokens? key v = .ok tokens ↔ v = .array (tokens.map .string) := by
  cases v with
  | array items =>
    rw [tokens?, mapM_eq_ok_iff, Json.array.injEq]
    constructor
    · intro h
      induction h with
      | nil => rfl
      | @cons item token _ _ hitem _ ih =>
        cases item with
        | string s => rw [List.map_cons, Except.ok.inj hitem, ih]
        | _ => exact absurd hitem (by simp)
    · rintro rfl
      rw [List.forall₂_map_left_iff]
      exact List.forall₂_same.2 fun _ _ => rfl
  | _ => simp [tokens?]

lemma exists_tokens?_iff {v : Json} :
    (∃ tokens, tokens? key v = .ok tokens) ↔ v.IsTokenList := by
  constructor
  · rintro ⟨tokens, h⟩
    obtain rfl := tokens?_eq_ok_iff.1 h
    refine .array fun item hitem => ?_
    obtain ⟨s, -, rfl⟩ := List.mem_map.1 hitem
    exact ⟨s, rfl⟩
  · rintro ⟨hstrings⟩
    refine exists_mapM_eq_ok fun item hitem => ?_
    obtain ⟨s, rfl⟩ := hstrings item hitem
    exact ⟨s, rfl⟩

lemma exists_declaredMembers?_iff :
    (∃ members, declaredMembers? metadata = .ok members) ↔
      (∀ v ∈ metadata.get? "allowedTokens", v.IsTokenList) ∧
        (metadata.get? "allowedTokens" = none →
          ∀ v ∈ metadata.get? "enum", v.IsTokenList ∨ ∃ s, v = .string s) := by
  rw [declaredMembers?]
  rcases metadata.get? "allowedTokens" with _ | v
  · rcases metadata.get? "enum" with _ | v
    · simp
    · cases v with
      | string s => simp
      | _ => simp [exists_tokens?_iff]
  · simp [exists_tokens?_iff]

lemma exists_connectability?_iff {v? : Option Json} :
    (∃ c, connectability? v? = .ok c) ↔ ∀ v ∈ v?, v.IsConnectability := by
  rcases v? with _ | v
  · simp [connectability?]
  cases v with
  | string s =>
    simp only [connectability?, Option.mem_def, Option.some.injEq, forall_eq']
    constructor
    · rintro ⟨c, h⟩
      split_ifs at h with honly hstandard
      · rw [honly]
        exact .interfaceOnly
      · rw [Bool.or_eq_true, decide_eq_true_eq, decide_eq_true_eq] at hstandard
        rcases hstandard with rfl | rfl
        · exact .empty
        · exact .standard
    · rintro (_ | _ | _)
      · exact ⟨.interfaceOnly, rfl⟩
      · exact ⟨.free, rfl⟩
      · exact ⟨.free, rfl⟩
  | _ =>
    constructor
    · rintro ⟨c, h⟩
      exact absurd h (by simp [connectability?])
    · intro h
      cases h _ rfl

lemma exists_text?_iff {v? : Option Json} :
    (∃ t, text? key v? = .ok t) ↔ ∀ v ∈ v?, v.IsText := by
  rcases v? with _ | v
  · simp [text?]
  cases v with
  | null => simp [text?, Json.IsText.null]
  | string s => simp [text?, Json.IsText.string]
  | _ =>
    constructor
    · rintro ⟨t, h⟩
      exact absurd h (by simp [text?])
    · intro h
      cases h _ rfl

lemma exists_flag?_iff {v? : Option Json} :
    (∃ b, flag? key v? = .ok b) ↔ ∀ v ∈ v?, v.IsFlag := by
  rcases v? with _ | v
  · simp [flag?]
  cases v with
  | null => simp [flag?, Json.IsFlag.null]
  | bool b => simp [flag?, Json.IsFlag.bool]
  | number n =>
    have hok : ∃ b, flag? key (some (.number n)) = .ok b := by
      rw [flag?]
      rcases n.int? with _ | i
      · exact ⟨_, rfl⟩
      · exact ⟨_, rfl⟩
    simp [hok, Json.IsFlag.number]
  | _ =>
    constructor
    · rintro ⟨b, h⟩
      exact absurd h (by simp [flag?])
    · intro h
      cases h _ rfl

lemma exists_vendor?_iff :
    (∃ entries, vendor? metadata = .ok entries) ↔ ∀ v ∈ metadata.vendor?, v.IsDictionary := by
  rw [vendor?, Schema.Metadata.vendor?]
  rcases (metadata.get? "customData").bind fun v => v.member? "realitykit" with _ | v
  · simp
  cases v with
  | object entries => simp [Json.IsDictionary.object]
  | _ =>
    constructor
    · rintro ⟨entries, h⟩
      exact absurd h (by simp)
    · intro h
      cases h _ rfl

/-- The vendor's dictionary holds the vendor's entries. -/
lemma get?_of_vendor? {entries : Schema.Metadata} (h : vendor? metadata = .ok entries)
    (key : String) : entries.get? key = metadata.vendorEntry? key := by
  rw [vendor?] at h
  rw [Schema.Metadata.vendorEntry?, Schema.Metadata.vendor?]
  rcases hv : (metadata.get? "customData").bind fun v => v.member? "realitykit" with _ | v
  · rw [hv] at h
    obtain rfl := Except.ok.inj h
    rfl
  · rw [hv] at h
    cases v with
    | object entries' =>
      obtain rfl := Except.ok.inj h
      rfl
    | _ => exact absurd h (by simp)

/-- A flag that is read tells whether it is raised. -/
lemma eq_isRaised_of_flag? {b : Bool} (h : flag? key (metadata.vendorEntry? key) = .ok b) :
    b = metadata.isRaised key := by
  rw [Schema.Metadata.isRaised]
  rcases hv : metadata.vendorEntry? key with _ | v
  · rw [hv] at h
    exact (Except.ok.inj h).symm
  · rw [hv] at h
    cases v with
    | null => exact (Except.ok.inj h).symm
    | bool b' => exact (Except.ok.inj h).symm
    | number n =>
      rw [flag?] at h
      rcases hint : n.int? with _ | i
      · rw [hint] at h
        simpa [hint] using (Except.ok.inj h).symm
      · rw [hint] at h
        simpa [hint] using (Except.ok.inj h).symm
    | _ => exact absurd h (by simp [flag?])

/-! ## Reading all of it -/

/-- Every annotation is read from its part of the metadata. -/
structure IsReadFrom (a : Annotations) (metadata : Schema.Metadata) : Prop where
  members? : ∃ members, declaredMembers? metadata = .ok members ∧
    a.members? = if members.isEmpty then none else some members
  connectability : connectability? (metadata.get? "connectability") = .ok a.connectability
  displayName? : text? "displayName" (metadata.get? "displayName") = .ok a.displayName?
  vendor : ∃ entries, vendor? metadata = .ok entries
  unsupported : flag? "unsupported" (metadata.vendorEntry? "unsupported") = .ok a.unsupported
  deprecated : flag? "deprecated" (metadata.vendorEntry? "deprecated") = .ok a.deprecated
  availability? : text? "availability" (metadata.vendorEntry? "availability") = .ok a.availability?

lemma ofMetadata?_eq_ok_iff {a : Annotations} :
    ofMetadata? metadata = .ok a ↔ a.IsReadFrom metadata := by
  constructor
  · intro h
    obtain ⟨members, hmembers, h⟩ := bind_eq_ok_iff.1 h
    obtain ⟨connectability, hconnectability, h⟩ := bind_eq_ok_iff.1 h
    obtain ⟨displayName, hdisplayName, h⟩ := bind_eq_ok_iff.1 h
    obtain ⟨vendor, hvendor, h⟩ := bind_eq_ok_iff.1 h
    obtain ⟨unsupported, hunsupported, h⟩ := bind_eq_ok_iff.1 h
    obtain ⟨deprecated, hdeprecated, h⟩ := bind_eq_ok_iff.1 h
    obtain ⟨availability, havailability, h⟩ := bind_eq_ok_iff.1 h
    rw [get?_of_vendor? hvendor] at hunsupported hdeprecated havailability
    obtain rfl := Except.ok.inj h
    exact ⟨⟨members, hmembers, rfl⟩, hconnectability, hdisplayName, ⟨vendor, hvendor⟩,
      hunsupported, hdeprecated, havailability⟩
  · intro h
    obtain ⟨members, hmembers, heq⟩ := h.members?
    obtain ⟨vendor, hvendor⟩ := h.vendor
    have hunsupported := h.unsupported
    have hdeprecated := h.deprecated
    have havailability := h.availability?
    rw [← get?_of_vendor? hvendor] at hunsupported hdeprecated havailability
    refine bind_eq_ok_iff.2 ⟨members, hmembers, ?_⟩
    refine bind_eq_ok_iff.2 ⟨a.connectability, h.connectability, ?_⟩
    refine bind_eq_ok_iff.2 ⟨a.displayName?, h.displayName?, ?_⟩
    refine bind_eq_ok_iff.2 ⟨vendor, hvendor, ?_⟩
    refine bind_eq_ok_iff.2 ⟨a.unsupported, hunsupported, ?_⟩
    refine bind_eq_ok_iff.2 ⟨a.deprecated, hdeprecated, ?_⟩
    refine bind_eq_ok_iff.2 ⟨a.availability?, havailability, ?_⟩
    rw [← heq]

/-- **Metadata is read when every part of it is in shape.** -/
lemma exists_ofMetadata?_iff : (∃ a, ofMetadata? metadata = .ok a) ↔ metadata.WellShaped := by
  simp only [ofMetadata?_eq_ok_iff]
  constructor
  · rintro ⟨a, h⟩
    obtain ⟨members, hmembers, -⟩ := h.members?
    obtain ⟨htokens, henumerated⟩ := exists_declaredMembers?_iff.1 ⟨members, hmembers⟩
    exact
      { allowedTokens := htokens
        enumerated := henumerated
        connectability := exists_connectability?_iff.1 ⟨_, h.connectability⟩
        displayName := exists_text?_iff.1 ⟨_, h.displayName?⟩
        vendor := exists_vendor?_iff.1 h.vendor
        unsupported := exists_flag?_iff.1 ⟨_, h.unsupported⟩
        deprecated := exists_flag?_iff.1 ⟨_, h.deprecated⟩
        availability := exists_text?_iff.1 ⟨_, h.availability?⟩ }
  · intro h
    obtain ⟨members, hmembers⟩ := exists_declaredMembers?_iff.2 ⟨h.allowedTokens, h.enumerated⟩
    obtain ⟨connectability, hconnectability⟩ := exists_connectability?_iff.2 h.connectability
    obtain ⟨displayName, hdisplayName⟩ := exists_text?_iff.2 h.displayName
    obtain ⟨unsupported, hunsupported⟩ := exists_flag?_iff.2 h.unsupported
    obtain ⟨deprecated, hdeprecated⟩ := exists_flag?_iff.2 h.deprecated
    obtain ⟨availability, havailability⟩ := exists_text?_iff.2 h.availability
    exact ⟨⟨_, connectability, displayName, unsupported, deprecated, availability⟩,
      ⟨members, hmembers, rfl⟩, hconnectability, hdisplayName, exists_vendor?_iff.2 h.vendor,
      hunsupported, hdeprecated, havailability⟩

end Annotations

/-! ## Annotations of a node -/

section Node

variable {node property : String} {metadata : Schema.Metadata}

lemma annotations?_eq_ok_iff {a : Annotations} :
    annotations? node property metadata = .ok a ↔ Annotations.ofMetadata? metadata = .ok a := by
  rw [annotations?]
  rcases Annotations.ofMetadata? metadata with defect | a'
  · simp
  · simp

/-- A defect is reported with the place where it is found. -/
lemma annotations?_of_defect {defect : Annotations.Defect}
    (h : Annotations.ofMetadata? metadata = .error defect) :
    annotations? node property metadata = .error ⟨node, property, .annotations defect⟩ := by
  rw [annotations?, h]

end Node

end ShaderBindings
