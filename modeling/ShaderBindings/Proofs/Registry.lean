/-
# The registry over a history of declarations

A registry that starts empty is the work of the declarations so far.  One declaration either
finds the sequence number of its key or registers an enumeration behind all others
(`declare_cases`), and this step keeps three facts about the registry and its history
(`Tracks.declare`):

* the registry is well formed: the sequence numbers count from one, no key stands twice, every
  entry has the key and the name of its members, and the keys lead to the entries that have them,
  so that the list and the keys stay in step;
* every entry belongs to the first declaration of its key, and every declared key has an entry;
* the reports are those on the entries without an established name, one for each.

The names of a well-formed registry differ as well.  Established names stand for one key each, and
a made-up name begins with its sequence number, which ends at the first underscore.
-/
import Mathlib.Data.List.Forall2
import Mathlib.Data.List.Induction
import Mathlib.Data.List.Infix
import Mathlib.Data.List.Nodup
import Mathlib.Data.List.Sort
import Mathlib.Data.String.Basic
import ShaderBindings.Category.Registry
import ShaderBindings.Proofs.Dictionary

namespace ShaderBindings

lemma nodup_eraseDups {α : Type} [DecidableEq α] (l : List α) : l.eraseDups.Nodup := by
  match l with
  | [] => exact List.nodup_nil
  | x :: rest =>
    rw [List.eraseDups_cons, List.nodup_cons, List.mem_eraseDups]
    exact ⟨by simp, nodup_eraseDups _⟩
termination_by l.length
decreasing_by exact Nat.lt_succ_of_le (List.length_filter_le _ _)

/-- The digits tell the number. -/
lemma eq_of_toDigits_eq {i j : Nat} (h : Nat.toDigits 10 i = Nat.toDigits 10 j) : i = j :=
  calc
    i = Nat.ofDigitChars 10 (Nat.toDigits 10 i) 0 := Nat.ofDigitChars_ten_toDigits.symm
    _ = Nat.ofDigitChars 10 (Nat.toDigits 10 j) 0 := by rw [h]
    _ = j := Nat.ofDigitChars_ten_toDigits

/-- The declaration of an enumeration by a node. -/
structure EnumDeclaration where
  node : String
  members : List String
deriving DecidableEq, Repr

/-- The key of the declared members. -/
def EnumDeclaration.key (d : EnumDeclaration) : String := EnumRegistry.structuralKey d.members

namespace EnumRegistry

/-! ## Keys -/

/-- The members of a key: each one once, in order. -/
def keyMembers (members : List String) : List String := members.eraseDups.mergeSort (· ≤ ·)

lemma structuralKey_eq (members : List String) :
    structuralKey members = "|".intercalate (keyMembers members) := rfl

lemma mem_keyMembers_iff {members : List String} {x : String} :
    x ∈ keyMembers members ↔ x ∈ members := by
  rw [keyMembers, (List.mergeSort_perm _ _).mem_iff, List.mem_eraseDups]

lemma keyMembers_perm (members : List String) : (keyMembers members).Perm members.eraseDups :=
  List.mergeSort_perm _ _

lemma sorted_keyMembers (members : List String) : (keyMembers members).Pairwise (· ≤ ·) := by
  have htrans : ∀ a b c : String, decide (a ≤ b) = true → decide (b ≤ c) = true →
      decide (a ≤ c) = true := by
    intro a b c hab hbc
    exact decide_eq_true (le_trans (of_decide_eq_true hab) (of_decide_eq_true hbc))
  have htotal : ∀ a b : String, (decide (a ≤ b) || decide (b ≤ a)) = true := by
    intro a b
    simpa using le_total a b
  exact (List.pairwise_mergeSort htrans htotal members.eraseDups).imp of_decide_eq_true

/-- The order and the repetitions of the members do not matter. -/
lemma keyMembers_congr {a b : List String} (h : ∀ x, x ∈ a ↔ x ∈ b) :
    keyMembers a = keyMembers b := by
  have hperm : a.eraseDups.Perm b.eraseDups := by
    refine (List.perm_ext_iff_of_nodup (nodup_eraseDups a) (nodup_eraseDups b)).2 fun x => ?_
    rw [List.mem_eraseDups, List.mem_eraseDups, h]
  have hsorted : (keyMembers a).Perm (keyMembers b) :=
    (keyMembers_perm a).trans (hperm.trans (keyMembers_perm b).symm)
  exact hsorted.eq_of_pairwise (fun _ _ _ _ => le_antisymm) (sorted_keyMembers a)
    (sorted_keyMembers b)

lemma structuralKey_congr {a b : List String} (h : ∀ x, x ∈ a ↔ x ∈ b) :
    structuralKey a = structuralKey b := by
  rw [structuralKey_eq, structuralKey_eq, keyMembers_congr h]

/-! ## Names -/

lemma toList_synthesizedName (id : Nat) (key : String) : ∃ rest,
    (synthesizedName id key).toList = "Enum".toList ++ (Nat.toDigits 10 id ++ '_' :: rest) :=
  ⟨key.toList.map fun c => if Text.isWordChar c then c else '_', by simp [synthesizedName]⟩

/-- The sequence number of a made-up name is what stands before the underscore. -/
lemma id_eq_of_synthesizedName {i j : Nat} {a b : String}
    (h : synthesizedName i a = synthesizedName j b) : i = j := by
  have hdigits : ∀ (n : Nat) (rest : List Char),
      (Nat.toDigits 10 n ++ '_' :: rest).takeWhile Char.isDigit = Nat.toDigits 10 n := by
    intro n rest
    rw [List.takeWhile_append_of_pos fun c hc =>
      Nat.isDigit_of_mem_toDigits (by decide) (by decide) hc]
    simp
  obtain ⟨resta, ha⟩ := toList_synthesizedName i a
  obtain ⟨restb, hb⟩ := toList_synthesizedName j b
  have hlists := List.append_cancel_left (ha.symm.trans ((congrArg String.toList h).trans hb))
  exact eq_of_toDigits_eq (by rw [← hdigits i resta, hlists, hdigits])

/-- No established name looks like a made-up one. -/
lemma canonical_ne_synthesizedName {entry : String × String} (h : entry ∈ canonicalNames)
    (id : Nat) (key : String) : entry.2 ≠ synthesizedName id key := by
  have hstart : ∀ entry ∈ canonicalNames, entry.2.toList.head? = some 'S' := by decide
  intro heq
  obtain ⟨rest, hname⟩ := toList_synthesizedName id key
  have hentry := hstart entry h
  rw [heq, hname] at hentry
  simp at hentry

/-- An established name stands for one key. -/
lemma canonical_key_eq {entry other : String × String} (h : entry ∈ canonicalNames)
    (h' : other ∈ canonicalNames) (heq : entry.2 = other.2) : entry.1 = other.1 := by
  have hall : ∀ entry ∈ canonicalNames, ∀ other ∈ canonicalNames,
      entry.2 = other.2 → entry.1 = other.1 := by decide
  exact hall entry h other h' heq

end EnumRegistry

/-! ## Well-formed registries -/

/-- The entry has the key of its members and a name for it. -/
structure EnumIdentity.Sound (e : EnumIdentity) : Prop where
  key_eq : e.key = EnumRegistry.structuralKey e.members
  members_nodup : e.members.Nodup
  /-- The name is the established one of the key, or a made-up one where there is none. -/
  named : (e.canonical = true ∧ (e.key, e.name) ∈ EnumRegistry.canonicalNames) ∨
    (e.canonical = false ∧ (∀ entry ∈ EnumRegistry.canonicalNames, entry.1 ≠ e.key) ∧
      e.name = EnumRegistry.synthesizedName e.id e.key)

namespace EnumRegistry

/-- What every history of declarations keeps. -/
structure WellFormed (r : EnumRegistry) : Prop where
  /-- The sequence numbers count from one, in the order of registration. -/
  ids : r.identities.map (·.id) = List.range' 1 r.identities.length
  keys_nodup : (r.identities.map (·.key)).Nodup
  sound : ∀ e ∈ r.identities, e.Sound
  byKey_sorted : r.byKey.Sorted
  /-- The list and the keys are in step: a key leads to the sequence number of the entry that has
  it, and to nothing when no entry has it. -/
  inStep : ∀ key id, r.byKey.get? key = some id ↔ ∃ e ∈ r.identities, e.key = key ∧ e.id = id

/-- One registry goes on where another one ends. -/
structure Extends (r' r : EnumRegistry) : Prop where
  /-- The old entries stand in front. -/
  identities : r.identities <+: r'.identities
  /-- The old keys lead where they have led. -/
  byKey : ∀ key id, r.byKey.get? key = some id → r'.byKey.get? key = some id

variable {r r' r'' : EnumRegistry} {members : List String} {e e' : EnumIdentity}

lemma Extends.refl (r : EnumRegistry) : r.Extends r := ⟨List.prefix_rfl, fun _ _ h => h⟩

lemma Extends.trans (h' : r''.Extends r') (h : r'.Extends r) : r''.Extends r :=
  ⟨h.identities.trans h'.identities, fun key id hid => h'.byKey key id (h.byKey key id hid)⟩

lemma WellFormed.empty : empty.WellFormed where
  ids := rfl
  keys_nodup := List.nodup_nil
  sound := fun _ he => absurd he List.not_mem_nil
  byKey_sorted := Dictionary.sorted_nil
  inStep := by simp [EnumRegistry.empty, Dictionary.get?]

namespace WellFormed

/-- A key that leads to nothing is that of no entry. -/
lemma get?_byKey_eq_none_iff (h : r.WellFormed) {key : String} :
    r.byKey.get? key = none ↔ ∀ e ∈ r.identities, e.key ≠ key := by
  constructor
  · intro hnone e he hkey
    rw [(h.inStep key e.id).2 ⟨e, he, hkey, rfl⟩] at hnone
    exact absurd hnone (by simp)
  · intro hnew
    by_contra hsome
    obtain ⟨id, hid⟩ := Option.ne_none_iff_exists'.1 hsome
    obtain ⟨e, he, hkey, -⟩ := (h.inStep key id).1 hid
    exact hnew e he hkey

lemma eq_of_key_eq (h : r.WellFormed) (he : e ∈ r.identities) (he' : e' ∈ r.identities)
    (hkey : e.key = e'.key) : e = e' := List.inj_on_of_nodup_map h.keys_nodup he he' hkey

lemma eq_of_id_eq (h : r.WellFormed) (he : e ∈ r.identities) (he' : e' ∈ r.identities)
    (hid : e.id = e'.id) : e = e' := by
  have hnodup : (r.identities.map (·.id)).Nodup := by
    rw [h.ids]
    exact List.nodup_range'
  exact List.inj_on_of_nodup_map hnodup he he' hid

lemma id_of_getElem? (h : r.WellFormed) {n : Nat} (hn : r.identities[n]? = some e) :
    e.id = n + 1 := by
  have hlt := (List.getElem?_eq_some_iff.1 hn).1
  have hids := congrArg (·[n]?) h.ids
  simp only [List.getElem?_map, hn, Option.map_some, List.getElem?_range' hlt,
    Option.some.injEq] at hids
  omega

/-- Looking up a sequence number finds the entry that has it, and nothing else. -/
lemma get?_eq_some_iff (h : r.WellFormed) {id : Nat} :
    r.get? id = some e ↔ e ∈ r.identities ∧ e.id = id := by
  constructor
  · intro hget
    cases id with
    | zero => exact absurd hget (by simp [get?])
    | succ n => exact ⟨List.mem_of_getElem? hget, h.id_of_getElem? hget⟩
  · rintro ⟨he, rfl⟩
    obtain ⟨n, hn⟩ := List.mem_iff_getElem?.1 he
    rw [h.id_of_getElem? hn]
    exact hn

/-- Two entries with one name are one entry. -/
lemma eq_of_name_eq (h : r.WellFormed) (he : e ∈ r.identities) (he' : e' ∈ r.identities)
    (hname : e.name = e'.name) : e = e' := by
  rcases (h.sound e he).named with ⟨-, hcanonical⟩ | ⟨-, -, hmade⟩
  · rcases (h.sound e' he').named with ⟨-, hcanonical'⟩ | ⟨-, -, hmade'⟩
    · exact h.eq_of_key_eq he he' (canonical_key_eq hcanonical hcanonical' hname)
    · exact absurd (hname.trans hmade') (canonical_ne_synthesizedName hcanonical _ _)
  · rcases (h.sound e' he').named with ⟨-, hcanonical'⟩ | ⟨-, -, hmade'⟩
    · exact absurd (hname.symm.trans hmade) (canonical_ne_synthesizedName hcanonical' _ _)
    · rw [hmade, hmade'] at hname
      exact h.eq_of_id_eq he he' (id_eq_of_synthesizedName hname)

lemma names_nodup (h : r.WellFormed) : (r.identities.map (·.name)).Nodup :=
  List.Nodup.map_on (fun _ he _ he' hname => h.eq_of_name_eq he he' hname)
    (List.Nodup.of_map _ h.keys_nodup)

end WellFormed

/-! ## One declaration -/

lemma mint_id : (r.mint members).id = r.identities.length + 1 := by
  rw [mint]
  split <;> rfl

lemma mint_key : (r.mint members).key = structuralKey members := by
  rw [mint]
  split <;> rfl

lemma mint_members : (r.mint members).members = members.eraseDups := by
  rw [mint]
  split <;> rfl

lemma sound_mint : (r.mint members).Sound where
  key_eq := by
    rw [mint_key, mint_members]
    exact structuralKey_congr fun x => List.mem_eraseDups.symm
  members_nodup := by
    rw [mint_members]
    exact nodup_eraseDups members
  named := by
    rw [mint]
    split
    · rename_i name hname
      exact Or.inl ⟨rfl, Dictionary.mem_of_get? hname⟩
    · rename_i hnone
      exact Or.inr ⟨rfl, Dictionary.get?_eq_none_iff.1 hnone, rfl⟩

/-- A declaration finds the sequence number of its key, or it registers a new entry behind all
others. -/
lemma declare_cases (r : EnumRegistry) (node : String) (members : List String) :
    (∃ id, r.byKey.get? (structuralKey members) = some id ∧
        r.declare node members = ⟨(.enumerated id, r), []⟩) ∨
      (r.byKey.get? (structuralKey members) = none ∧
        r.declare node members
          = ⟨(.enumerated (r.mint members).id, r.add (r.mint members)),
            if (r.mint members).canonical then []
            else [.unnamedEnum node members (r.mint members).name]⟩) := by
  rw [declare]
  rcases r.byKey.get? (structuralKey members) with _ | id
  · exact Or.inr ⟨rfl, rfl⟩
  · exact Or.inl ⟨id, rfl, rfl⟩

/-- A new entry changes what its own key leads to and nothing else. -/
lemma get?_byKey_add (hnew : r.byKey.get? e.key = none) (key : String) :
    (r.add e).byKey.get? key = if key = e.key then some e.id else r.byKey.get? key :=
  Dictionary.get?_insert_of_none hnew e.id key

lemma extends_add (hnew : r.byKey.get? e.key = none) : (r.add e).Extends r where
  identities := List.prefix_append _ _
  byKey := by
    intro key id hid
    have hne : key ≠ e.key := by
      rintro rfl
      simp [hnew] at hid
    rw [get?_byKey_add hnew, if_neg hne, hid]

lemma extends_declare (r : EnumRegistry) (node : String) (members : List String) :
    (r.declare node members).value.2.Extends r := by
  rcases declare_cases r node members with ⟨id, -, heq⟩ | ⟨hnew, heq⟩
  · rw [heq]
    exact Extends.refl r
  · rw [heq]
    exact extends_add (by rwa [mint_key])

/-- A declaration gets the sequence number to which its key leads afterwards. -/
lemma exists_get?_byKey_declare (r : EnumRegistry) (node : String) (members : List String) :
    ∃ id, (r.declare node members).value.1 = .enumerated id ∧
      (r.declare node members).value.2.byKey.get? (structuralKey members) = some id := by
  rcases declare_cases r node members with ⟨id, hid, heq⟩ | ⟨hnew, heq⟩
  · rw [heq]
    exact ⟨id, rfl, hid⟩
  · rw [heq]
    refine ⟨(r.mint members).id, rfl, ?_⟩
    rw [get?_byKey_add (by rwa [mint_key]), if_pos mint_key.symm]

/-- Registering a new key keeps the registry well formed. -/
lemma WellFormed.add_mint (h : r.WellFormed)
    (hnew : r.byKey.get? (structuralKey members) = none) :
    (r.add (r.mint members)).WellFormed where
  ids := by
    rw [add, List.map_append, h.ids, List.length_append, List.length_singleton,
      List.range'_1_concat, List.map_singleton, mint_id, Nat.add_comm]
  keys_nodup := by
    rw [add, List.map_append, List.map_singleton, mint_key]
    refine List.Nodup.append h.keys_nodup (List.nodup_singleton _) ?_
    rw [List.disjoint_singleton]
    intro hmem
    obtain ⟨e, he, hkey⟩ := List.mem_map.1 hmem
    exact h.get?_byKey_eq_none_iff.1 hnew e he hkey
  sound := by
    intro e he
    rcases List.mem_append.1 he with he | he
    · exact h.sound e he
    · rw [List.mem_singleton.1 he]
      exact sound_mint
  byKey_sorted := h.byKey_sorted.insert _ _
  inStep := by
    intro key id
    rw [get?_byKey_add (by rwa [mint_key]), add]
    simp only [List.mem_append, List.mem_singleton, or_and_right, exists_or, exists_eq_left]
    by_cases hkey : key = (r.mint members).key
    -- no old entry has the key
    · have hold : ¬ ∃ e ∈ r.identities, e.key = key ∧ e.id = id := by
        rintro ⟨e, he, heq, -⟩
        rw [hkey, mint_key] at heq
        exact h.get?_byKey_eq_none_iff.1 hnew e he heq
      simp [hkey.symm, hold]
    · rw [if_neg hkey, h.inStep]
      simp [Ne.symm hkey]

/-- A declaration keeps the registry well formed. -/
lemma WellFormed.declare (h : r.WellFormed) (node : String) (members : List String) :
    (r.declare node members).value.2.WellFormed := by
  rcases declare_cases r node members with ⟨id, -, heq⟩ | ⟨hnew, heq⟩
  · rw [heq]
    exact h
  · rw [heq]
    exact h.add_mint hnew

end EnumRegistry

/-! ## A history of declarations -/

/-- The declaration is the first one in the history with the key of the entry. -/
def EnumDeclaration.IsFirst (d : EnumDeclaration) (history : List EnumDeclaration)
    (e : EnumIdentity) : Prop :=
  ∃ earlier later, history = earlier ++ d :: later ∧ d.key = e.key ∧
    ∀ d' ∈ earlier, d'.key ≠ e.key

/-- The report is the one on an entry without an established name, at its first declaration. -/
def EnumIdentity.IsAnnounced (e : EnumIdentity) (history : List EnumDeclaration)
    (report : Diagnostic) : Prop :=
  ∃ d : EnumDeclaration, d.IsFirst history e ∧ report = .unnamedEnum d.node d.members e.name

namespace EnumRegistry

/-- The registry after some declarations, with the reports on them. -/
def declareAll (r : EnumRegistry) : List EnumDeclaration → Reported EnumRegistry
  | [] => ⟨r, []⟩
  | d :: rest =>
    let one := r.declare d.node d.members
    let all := declareAll one.value.2 rest
    ⟨all.value, one.diagnostics ++ all.diagnostics⟩

/-- The registry that starts empty, after a history. -/
def after (history : List EnumDeclaration) : EnumRegistry := (empty.declareAll history).value

/-- The category that a declaration gets after a history. -/
def assigned (history : List EnumDeclaration) (d : EnumDeclaration) : Category :=
  ((after history).declare d.node d.members).value.1

/-- What a registry and the reports on it have to do with the history that made them. -/
structure Tracks (run : Reported EnumRegistry) (history : List EnumDeclaration) : Prop
    extends run.value.WellFormed where
  /-- Every declared key has an entry. -/
  declared : ∀ d ∈ history, ∃ e ∈ run.value.identities, e.key = d.key
  /-- Every entry has the members of the first declaration of its key. -/
  first : ∀ e ∈ run.value.identities, ∃ d : EnumDeclaration, d.IsFirst history e ∧
    e.members = d.members.eraseDups
  /-- The entries without an established name are reported, each one once. -/
  announced : List.Forall₂ (fun e report => e.IsAnnounced history report)
    (run.value.identities.filter fun e => !e.canonical) run.diagnostics

section History

variable {history : List EnumDeclaration} {d d' : EnumDeclaration} {e : EnumIdentity}
  {run : Reported EnumRegistry}

lemma declareAll_append (r : EnumRegistry) (earlier later : List EnumDeclaration) :
    r.declareAll (earlier ++ later)
      = ⟨((r.declareAll earlier).value.declareAll later).value,
        (r.declareAll earlier).diagnostics
          ++ ((r.declareAll earlier).value.declareAll later).diagnostics⟩ := by
  induction earlier generalizing r with
  | nil => rfl
  | cons d earlier ih => rw [List.cons_append, declareAll, ih, declareAll, List.append_assoc]

lemma declareAll_singleton (r : EnumRegistry) (d : EnumDeclaration) :
    r.declareAll [d]
      = ⟨(r.declare d.node d.members).value.2, (r.declare d.node d.members).diagnostics⟩ := by
  simp [declareAll]

lemma after_append (earlier later : List EnumDeclaration) :
    after (earlier ++ later) = ((after earlier).declareAll later).value := by
  rw [after, declareAll_append, after]

lemma isFirst_append (h : d.IsFirst history e) (d' : EnumDeclaration) :
    d.IsFirst (history ++ [d']) e := by
  obtain ⟨earlier, later, rfl, hkey, hearlier⟩ := h
  exact ⟨earlier, later ++ [d'], by simp, hkey, hearlier⟩

lemma isAnnounced_append {report : Diagnostic} (h : e.IsAnnounced history report)
    (d' : EnumDeclaration) : e.IsAnnounced (history ++ [d']) report := by
  obtain ⟨d, hfirst, hreport⟩ := h
  exact ⟨d, isFirst_append hfirst d', hreport⟩

lemma Tracks.empty : Tracks ⟨empty, []⟩ [] where
  toWellFormed := WellFormed.empty
  declared := fun _ hd => absurd hd List.not_mem_nil
  first := fun _ he => absurd he List.not_mem_nil
  announced := List.Forall₂.nil

/-- A declaration that finds its key leaves the registry as it is. -/
lemma Tracks.found (h : Tracks run history) (he : e ∈ run.value.identities)
    (hkey : e.key = d.key) : Tracks run (history ++ [d]) where
  toWellFormed := h.toWellFormed
  declared := by
    intro d' hd'
    rcases List.mem_append.1 hd' with hd' | hd'
    · exact h.declared d' hd'
    · rw [List.mem_singleton.1 hd']
      exact ⟨e, he, hkey⟩
  first := by
    intro e' he'
    obtain ⟨d', hfirst, hmembers⟩ := h.first e' he'
    exact ⟨d', isFirst_append hfirst d, hmembers⟩
  announced := h.announced.imp fun _ _ hreport => isAnnounced_append hreport d

/-- A declaration of a new key is the first one of its entry. -/
lemma Tracks.isFirst_mint (h : Tracks run history) (hnew : run.value.byKey.get? d.key = none) :
    d.IsFirst (history ++ [d]) (run.value.mint d.members) := by
  refine ⟨history, [], rfl, mint_key.symm, fun d' hd' => ?_⟩
  obtain ⟨e, he, hkey⟩ := h.declared d' hd'
  rw [← hkey, mint_key]
  exact h.get?_byKey_eq_none_iff.1 hnew e he

lemma Tracks.registered (h : Tracks run history) (hnew : run.value.byKey.get? d.key = none) :
    Tracks ⟨run.value.add (run.value.mint d.members), run.diagnostics
      ++ if (run.value.mint d.members).canonical then []
        else [.unnamedEnum d.node d.members (run.value.mint d.members).name]⟩
      (history ++ [d]) where
  toWellFormed := h.toWellFormed.add_mint hnew
  declared := by
    intro d' hd'
    rcases List.mem_append.1 hd' with hd' | hd'
    · obtain ⟨e, he, hkey⟩ := h.declared d' hd'
      exact ⟨e, List.mem_append_left _ he, hkey⟩
    · rw [List.mem_singleton.1 hd']
      exact ⟨_, List.mem_append_right _ List.mem_cons_self, mint_key⟩
  first := by
    intro e he
    rcases List.mem_append.1 he with he | he
    · obtain ⟨d', hfirst, hmembers⟩ := h.first e he
      exact ⟨d', isFirst_append hfirst d, hmembers⟩
    · rw [List.mem_singleton.1 he]
      exact ⟨d, h.isFirst_mint hnew, mint_members⟩
  announced := by
    have hold := h.announced.imp fun _ _ hreport => isAnnounced_append hreport d
    rw [add, List.filter_append]
    refine List.rel_append hold ?_
    by_cases hcanonical : (run.value.mint d.members).canonical = true
    · simp [hcanonical]
    · simp only [hcanonical, Bool.false_eq_true, if_false, List.filter_singleton,
        Bool.not_false]
      exact List.Forall₂.cons ⟨d, h.isFirst_mint hnew, rfl⟩ List.Forall₂.nil

/-- One more declaration keeps track of the history. -/
lemma Tracks.declare (h : Tracks run history) (d : EnumDeclaration) :
    Tracks ⟨(run.value.declare d.node d.members).value.2,
      run.diagnostics ++ (run.value.declare d.node d.members).diagnostics⟩ (history ++ [d]) := by
  rcases declare_cases run.value d.node d.members with ⟨id, hid, heq⟩ | ⟨hnew, heq⟩
  · obtain ⟨e, he, hkey, -⟩ := (h.inStep _ _).1 hid
    rw [heq, List.append_nil]
    exact h.found he hkey
  · rw [heq]
    exact h.registered hnew

/-- The registry after a history tracks it. -/
lemma tracks_declareAll (history : List EnumDeclaration) :
    Tracks (EnumRegistry.empty.declareAll history) history := by
  induction history using List.reverseRecOn with
  | nil => exact Tracks.empty
  | append_singleton history d ih =>
    rw [declareAll_append, declareAll_singleton]
    exact ih.declare d

lemma wellFormed_after (history : List EnumDeclaration) : (after history).WellFormed :=
  (tracks_declareAll history).toWellFormed

lemma extends_declareAll (r : EnumRegistry) (later : List EnumDeclaration) :
    (r.declareAll later).value.Extends r := by
  induction later generalizing r with
  | nil => exact Extends.refl r
  | cons d later ih => exact (ih _).trans (extends_declare r d.node d.members)

lemma extends_after (earlier later : List EnumDeclaration) :
    (after (earlier ++ later)).Extends (after earlier) := by
  rw [after_append]
  exact extends_declareAll _ later

/-- A declaration gets the enumeration of its key. -/
lemma exists_assigned (history : List EnumDeclaration) (d : EnumDeclaration) :
    ∃ e ∈ (after (history ++ [d])).identities,
      assigned history d = .enumerated e.id ∧ e.key = d.key := by
  obtain ⟨id, hcategory, hid⟩ := exists_get?_byKey_declare (after history) d.node d.members
  have hwellFormed := (wellFormed_after history).declare d.node d.members
  obtain ⟨e, he, hkey, rfl⟩ := (hwellFormed.inStep _ _).1 hid
  rw [after_append, declareAll_singleton, assigned]
  exact ⟨e, he, hcategory, hkey⟩

/-- Two declarations of a history get one category exactly when their keys are the same. -/
lemma assigned_eq_iff (history between : List EnumDeclaration) (d d' : EnumDeclaration) :
    assigned (history ++ d :: between) d' = assigned history d ↔ d'.key = d.key := by
  obtain ⟨e, he, hcategory, hkey⟩ := exists_assigned history d
  obtain ⟨e', he', hcategory', hkey'⟩ := exists_assigned (history ++ d :: between) d'
  have hwellFormed := wellFormed_after (history ++ d :: between ++ [d'])
  -- the entry of the first declaration is still there after the second one
  have hkept : e ∈ (after (history ++ d :: between ++ [d'])).identities := by
    have hgrown := (extends_after (history ++ [d]) (between ++ [d'])).identities
    simp only [List.append_assoc, List.cons_append, List.nil_append] at hgrown he ⊢
    exact hgrown.subset he
  rw [hcategory, hcategory', Category.enumerated.injEq, ← hkey, ← hkey']
  constructor
  · intro hid
    rw [hwellFormed.eq_of_id_eq he' hkept hid]
  · intro hkeys
    rw [hwellFormed.eq_of_key_eq he' hkept hkeys]

end History

/-- What holds of the registry of every history. -/
structure Faithful (history : List EnumDeclaration) : Prop
    extends Tracks (empty.declareAll history) history where
  /-- Names differ, whether they are established or made up. -/
  names_nodup : ((after history).identities.map (·.name)).Nodup
  /-- Looking up a sequence number finds the entry that has it, and nothing else. -/
  get?_iff : ∀ id e, (after history).get? id = some e ↔ e ∈ (after history).identities ∧ e.id = id
  /-- What is registered stays as it is, in the list and under its key. -/
  kept : ∀ later, (after (history ++ later)).Extends (after history)
  /-- Declarations of the same members get the same category. -/
  structural : ∀ between d d', (∀ x, x ∈ d.members ↔ x ∈ d'.members) →
    assigned (history ++ d :: between) d' = assigned history d

/-- **The registry is faithful to every history.**  Sequence numbers count from one, keys and names
are distinct, the keys lead to the entries that have them, entries stay as they are, the order and
the repetitions of the members do not matter, and each entry without an established name is reported
once, at its first declaration. -/
theorem registry_faithful (history : List EnumDeclaration) : Faithful history where
  toTracks := tracks_declareAll history
  names_nodup := (wellFormed_after history).names_nodup
  get?_iff := fun _ _ => (wellFormed_after history).get?_eq_some_iff
  kept := extends_after history
  structural := fun between d d' h =>
    (assigned_eq_iff history between d d').2 (structuralKey_congr fun x => (h x).symm)

/-! ## Members with a bar -/

/-- The key tells the members when no bar stands in them. -/
lemma keyMembers_eq_of_structuralKey_eq {a b : List String} (ha : a ≠ []) (hb : b ≠ [])
    (hbars : ∀ x ∈ a ++ b, '|' ∉ x.toList) (h : structuralKey a = structuralKey b) :
    keyMembers a = keyMembers b := by
  have hsplit : ∀ l : List String, l ≠ [] → (∀ x ∈ l, '|' ∉ x.toList) →
      (structuralKey l).toList.splitOn '|' = (keyMembers l).map String.toList := by
    intro l hne hl
    rw [structuralKey_eq, String.toList_intercalate]
    refine List.splitOn_intercalate '|' ?_ ?_
    · intro chars hchars
      obtain ⟨x, hx, rfl⟩ := List.mem_map.1 hchars
      exact hl x (mem_keyMembers_iff.1 hx)
    · obtain ⟨x, hx⟩ := List.exists_mem_of_ne_nil l hne
      exact List.ne_nil_of_mem (List.mem_map_of_mem (mem_keyMembers_iff.2 hx))
  have hlists : (keyMembers a).map String.toList = (keyMembers b).map String.toList := by
    rw [← hsplit a ha fun x hx => hbars x (List.mem_append_left _ hx), h,
      hsplit b hb fun x hx => hbars x (List.mem_append_right _ hx)]
  exact List.map_injective_iff.2 (fun _ _ => String.toList_injective) hlists

/-- **Declarations get one category only for one set of members**, as far as no member contains a
bar, which separates the members in a key. -/
theorem assigned_eq_iff_of_no_bar (history between : List EnumDeclaration)
    (d d' : EnumDeclaration) (hd : d.members ≠ []) (hd' : d'.members ≠ [])
    (hbars : ∀ x ∈ d.members ++ d'.members, '|' ∉ x.toList) :
    assigned (history ++ d :: between) d' = assigned history d
      ↔ ∀ x, x ∈ d.members ↔ x ∈ d'.members := by
  rw [assigned_eq_iff]
  constructor
  · intro hkey x
    have hmembers := keyMembers_eq_of_structuralKey_eq hd hd' hbars hkey.symm
    rw [← mem_keyMembers_iff, hmembers, mem_keyMembers_iff]
  · exact fun h => structuralKey_congr fun x => (h x).symm

theorem assigned_eq_iff_of_no_bar_swapped :
    assigned ([] ++ ⟨"ND_first", ["model", "world"]⟩ :: [⟨"ND_between", ["linear"]⟩])
        ⟨"ND_second", ["world", "model", "world"]⟩
      = assigned [] ⟨"ND_first", ["model", "world"]⟩ :=
  (assigned_eq_iff_of_no_bar [] [⟨"ND_between", ["linear"]⟩] ⟨"ND_first", ["model", "world"]⟩
    ⟨"ND_second", ["world", "model", "world"]⟩ (by decide) (by decide) (by decide)).2 (by simp)

/-- A member with a bar has the key of two members, so that different sets of members get one
category. -/
theorem assigned_eq_of_bar :
    ¬ ∀ (history between : List EnumDeclaration) (d d' : EnumDeclaration), d.members ≠ [] →
      d'.members ≠ [] → assigned (history ++ d :: between) d' = assigned history d →
        ∀ x, x ∈ d.members ↔ x ∈ d'.members := by
  intro h
  have hparts : keyMembers ["a", "b"] = ["a", "b"] := List.mergeSort_of_pairwise (by decide)
  have hwhole : keyMembers ["a|b"] = ["a|b"] := List.mergeSort_singleton _
  have hkey : structuralKey ["a", "b"] = structuralKey ["a|b"] := by
    rw [structuralKey_eq, structuralKey_eq, hparts, hwhole]
    rfl
  have hassigned := (assigned_eq_iff [] [] ⟨"ND_whole", ["a|b"]⟩ ⟨"ND_parts", ["a", "b"]⟩).2 hkey
  have hmem := h [] [] ⟨"ND_whole", ["a|b"]⟩ ⟨"ND_parts", ["a", "b"]⟩ (by decide) (by decide)
    hassigned "a"
  simp at hmem

end EnumRegistry

end ShaderBindings
