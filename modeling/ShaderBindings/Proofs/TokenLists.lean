/-
# Three ways to declare the members of an enumeration

Metadata declares the members of an enumeration by a list under `allowedTokens`, which prevails, or
under `enum`, by a list or by one text.  A text lists its tokens with commas between them, and it
may have blanks around every token and entries that are empty or blank (`Text.Lists`).  The tokens
with nothing but commas between them are such a text (`lists_intercalate`).  Splitting at the commas
goes through the commas of a text one by one, and trimming an entry gives back its token or nothing,
so what is read from a text is what it lists (`tokensOfText_eq_iff`).

From there on the way of declaring is gone: the annotations are the same, whatever else the metadata
says, and so is the identity of the enumeration (`enumerates_of_declares`).
-/
import ShaderBindings.Proofs.Declarations
import ShaderBindings.Proofs.Dictionary
import ShaderBindings.Proofs.Metadata
import ShaderBindings.Proofs.Remarks

namespace ShaderBindings

open Fault Text

/-! ## Texts that list tokens -/

namespace Text

def IsBlankText (s : List Char) : Prop := ∀ c ∈ s, isBlank c = true

/-- What can stand as a member in a text with commas. -/
structure IsToken (token : String) : Prop where
  ne_empty : token ≠ ""
  comma_notMem : ',' ∉ token.toList
  isTrimmed : IsTrimmed token.toList

/-- The text lists the tokens in their order.  Between its commas stands a token with blanks around
it, or nothing but blanks. -/
inductive Lists : List Char → List String → Prop
  | blank {s : List Char} : IsBlankText s → Lists s []
  | token {before after : List Char} {token : String} :
      IsBlankText before → IsToken token → IsBlankText after →
      Lists (before ++ (token.toList ++ after)) [token]
  | comma {s s' : List Char} {tokens tokens' : List String} : Lists s tokens → Lists s' tokens' →
      Lists (s ++ ',' :: s') (tokens ++ tokens')

variable {s before after : List Char} {token : String} {tokens : List String}

lemma trimStart_append (h : IsBlankText before) (s : List Char) :
    trimStart (before ++ s) = trimStart s := List.dropWhile_append_of_pos h

lemma trimStart_of_isBlankText (h : IsBlankText s) : trimStart s = [] := by
  rw [← List.append_nil s, trimStart_append h]
  rfl

lemma trimStart_of_head (h : ∀ c, s.head? = some c → isBlank c = false) : trimStart s = s := by
  cases s with
  | nil => rfl
  | cons c s => exact List.dropWhile_cons_of_neg (by simp [h c rfl])

lemma trim_of_isBlankText (h : IsBlankText s) : trim s = [] := by
  rw [trim, trimStart_of_isBlankText h]
  rfl

/-- Trimming takes the blanks around a text off. -/
lemma trim_append_append (hbefore : IsBlankText before) (hs : IsTrimmed s) (hne : s ≠ [])
    (hafter : IsBlankText after) : trim (before ++ (s ++ after)) = s := by
  have hhead : ∀ c, (s ++ after).head? = some c → isBlank c = false := by
    rw [List.head?_append_of_ne_nil _ hne]
    exact hs.head
  have hlast : ∀ c, s.reverse.head? = some c → isBlank c = false := by
    rw [List.head?_reverse]
    exact hs.last
  calc trim (before ++ (s ++ after))
      = trimEnd (s ++ after) := by rw [trim, trimStart_append hbefore, trimStart_of_head hhead]
    _ = (trimStart (after.reverse ++ s.reverse)).reverse := by rw [← List.reverse_append]; rfl
    _ = (trimStart s.reverse).reverse := by
      rw [trimStart_append fun c hc => hafter c (List.mem_reverse.1 hc)]
    _ = s := by rw [trimStart_of_head hlast, List.reverse_reverse]

/-- What trimming takes off is blank. -/
lemma exists_eq_append_trim (s : List Char) :
    ∃ before after, s = before ++ (trim s ++ after) ∧ IsBlankText before ∧ IsBlankText after := by
  have hblank : ∀ t : List Char, IsBlankText (t.takeWhile isBlank) :=
    fun t => List.all_eq_true.1 List.all_takeWhile
  refine ⟨s.takeWhile isBlank, ((trimStart s).reverse.takeWhile isBlank).reverse, ?_, hblank s,
    fun c hc => hblank _ c (List.mem_reverse.1 hc)⟩
  rw [trim, trimEnd, ← List.reverse_append, List.takeWhile_append_dropWhile, List.reverse_reverse,
    trimStart, List.takeWhile_append_dropWhile]

/-- Commas between tokens are the plain way to list them. -/
lemma lists_intercalate (h : ∀ token ∈ tokens, IsToken token) :
    Lists (",".intercalate tokens).toList tokens := by
  rw [String.toList_intercalate]
  have hnil : IsBlankText [] := fun c hc => absurd hc List.not_mem_nil
  induction tokens with
  | nil => exact .blank hnil
  | cons first rest ih =>
    obtain ⟨hfirst, hrest⟩ := List.forall_mem_cons.1 h
    have hentry : Lists first.toList [first] := by simpa using Lists.token hnil hfirst hnil
    cases rest with
    | nil => simpa [List.intercalate] using hentry
    | cons second rest => simpa [List.intercalate] using hentry.comma (ih hrest)

end Text

namespace Annotations

/-! ## Reading a text -/

variable {s : List Char} {tokens : List String}

lemma tokensOfText_ofList (s : List Char) : tokensOfText (String.ofList s)
    = (((s.splitOn ',').map Text.trim).filter fun token => !token.isEmpty).map String.ofList := by
  rw [tokensOfText, String.toList_ofList]

/-- The tokens around a comma are those in front of it and those behind it. -/
lemma tokensOfText_append_comma (s s' : List Char) :
    tokensOfText (String.ofList (s ++ ',' :: s'))
      = tokensOfText (String.ofList s) ++ tokensOfText (String.ofList s') := by
  simp only [tokensOfText_ofList, List.splitOn_append_cons_self, List.map_append,
    List.filter_append]

/-- A text without a comma has the token that trimming leaves, if it leaves one. -/
lemma tokensOfText_of_no_comma (h : ',' ∉ s) : tokensOfText (String.ofList s)
    = if Text.trim s = [] then [] else [String.ofList (Text.trim s)] := by
  rw [tokensOfText_ofList, List.splitOn_eq_singleton h, List.map_singleton]
  rcases Text.trim s with _ | ⟨c, rest⟩
  · rfl
  · rfl

lemma comma_notMem_of_isBlankText (h : IsBlankText s) : ',' ∉ s :=
  fun hmem => absurd (h _ hmem) (by decide)

/-- What a text lists is read from it. -/
lemma tokensOfText_of_lists (h : Lists s tokens) : tokensOfText (String.ofList s) = tokens := by
  induction h with
  | blank hs =>
    rw [tokensOfText_of_no_comma (comma_notMem_of_isBlankText hs), trim_of_isBlankText hs,
      if_pos rfl]
  | @token before after token hbefore htoken hafter =>
    have hne : token.toList ≠ [] := by simpa using htoken.ne_empty
    have hcomma : ',' ∉ before ++ (token.toList ++ after) := by
      simp [comma_notMem_of_isBlankText hbefore, htoken.comma_notMem,
        comma_notMem_of_isBlankText hafter]
    rw [tokensOfText_of_no_comma hcomma, trim_append_append hbefore htoken.isTrimmed hne hafter,
      if_neg hne, String.ofList_toList]
  | comma _ _ ih ih' => rw [tokensOfText_append_comma, ih, ih']

/-- A text without a comma lists the token that trimming leaves, if it leaves one. -/
lemma lists_of_no_comma (h : ',' ∉ s) : Lists s (tokensOfText (String.ofList s)) := by
  rw [tokensOfText_of_no_comma h]
  obtain ⟨before, after, hs, hbefore, hafter⟩ := exists_eq_append_trim s
  split_ifs with hempty
  · rw [hempty, List.nil_append] at hs
    refine .blank fun c hc => ?_
    rw [hs] at hc
    exact (List.mem_append.1 hc).elim (hbefore c) (hafter c)
  · have htoken : IsToken (String.ofList (trim s)) := by
      refine ⟨by simpa using hempty, fun hmem => h ?_, ?_⟩
      · rw [String.toList_ofList] at hmem
        rw [hs]
        exact List.mem_append_right _ (List.mem_append_left _ hmem)
      · rw [String.toList_ofList]
        exact isTrimmed_trim s
    have hlists := Lists.token hbefore htoken hafter
    rwa [String.toList_ofList, ← hs] at hlists

/-- What is read from a text is listed in it. -/
lemma lists_tokensOfText (s : List Char) : Lists s (tokensOfText (String.ofList s)) := by
  by_cases hcomma : ',' ∈ s
  · obtain ⟨front, back, hs⟩ := List.append_of_mem hcomma
    have hfront : front.length < s.length := by simp [hs]
    have hback : back.length < s.length := by simp [hs]; omega
    rw [hs, tokensOfText_append_comma]
    exact (lists_tokensOfText front).comma (lists_tokensOfText back)
  · exact lists_of_no_comma hcomma
termination_by s.length

/-- **A text is read as the tokens that it lists.** -/
lemma tokensOfText_eq_iff {text : String} :
    tokensOfText text = tokens ↔ Lists text.toList tokens := by
  constructor
  · rintro rfl
    simpa using lists_tokensOfText text.toList
  · intro h
    simpa using tokensOfText_of_lists h

end Annotations

/-! ## Metadata -/

namespace Schema.Metadata

/-- The metadata declares the tokens, in one of the three ways. -/
inductive Declares (m : Metadata) (tokens : List String) : Prop
  | text {text : String} : Dictionary.get? m "allowedTokens" = none →
      Dictionary.get? m "enum" = some (.string text) → Lists text.toList tokens → Declares m tokens
  | list : Dictionary.get? m "allowedTokens" = none →
      Dictionary.get? m "enum" = some (.array (tokens.map .string)) → Declares m tokens
  | allowedTokens : Dictionary.get? m "allowedTokens" = some (.array (tokens.map .string)) →
      Declares m tokens

/-- What the metadata says besides the members of an enumeration. -/
def withoutMembers (m : Metadata) : Metadata :=
  Dictionary.erase (Dictionary.erase m "allowedTokens") "enum"

end Schema.Metadata

namespace Annotations

variable {m : Schema.Metadata} {tokens : List String} {key : String}

def withMembers (a : Annotations) (tokens : List String) : Annotations :=
  { a with members? := some tokens }

/-- The annotations of metadata that says nothing but the members of an enumeration. -/
def ofMembers (tokens : List String) : Annotations := ⟨some tokens, .free, none, false, false, none⟩

/-- **Tokens are read as members exactly when the metadata declares them.** -/
lemma declaredMembers?_eq_ok_iff (hne : tokens ≠ []) :
    declaredMembers? m = .ok tokens ↔ m.Declares tokens := by
  constructor
  · intro h
    rw [declaredMembers?] at h
    rcases hallowed : m.get? "allowedTokens" with _ | v
    · rcases henum : m.get? "enum" with _ | v
      · simp only [hallowed, henum] at h
        exact absurd (Except.ok.inj h).symm hne
      · simp only [hallowed, henum] at h
        cases v with
        | string text => exact .text hallowed henum (tokensOfText_eq_iff.1 (Except.ok.inj h))
        | _ => exact .list hallowed (tokens?_eq_ok_iff.1 h ▸ henum)
    · simp only [hallowed] at h
      exact .allowedTokens (tokens?_eq_ok_iff.1 h ▸ hallowed)
  · rintro (⟨hallowed, henum, hlists⟩ | ⟨hallowed, henum⟩ | hallowed)
    · rw [declaredMembers?, hallowed, henum, ← tokensOfText_eq_iff.2 hlists]
    · rw [declaredMembers?, hallowed, henum]
      exact tokens?_eq_ok_iff.2 rfl
    · rw [declaredMembers?, hallowed]
      exact tokens?_eq_ok_iff.2 rfl

lemma get?_withoutMembers (hallowed : key ≠ "allowedTokens") (henum : key ≠ "enum") :
    m.withoutMembers.get? key = m.get? key := by
  rw [Schema.Metadata.withoutMembers, Dictionary.get?_erase_of_ne henum,
    Dictionary.get?_erase_of_ne hallowed]

lemma declaredMembers?_withoutMembers : declaredMembers? m.withoutMembers = .ok [] := by
  have hallowed : m.withoutMembers.get? "allowedTokens" = none := by
    rw [Schema.Metadata.withoutMembers, Dictionary.get?_erase_of_ne (by decide),
      Dictionary.get?_erase_self]
  have henum : m.withoutMembers.get? "enum" = none := Dictionary.get?_erase_self _ _
  rw [declaredMembers?, hallowed, henum]

lemma vendor?_withoutMembers : vendor? m.withoutMembers = vendor? m := by
  rw [vendor?, vendor?, get?_withoutMembers (by decide) (by decide)]

/-- Metadata that declares tokens is read as the rest of it is, and as having them. -/
lemma ofMetadata?_of_declares (hne : tokens ≠ []) (h : m.Declares tokens) :
    ofMetadata? m = (ofMetadata? m.withoutMembers).map (·.withMembers tokens) := by
  have hempty : tokens.isEmpty = false := by simpa using hne
  rw [ofMetadata?, ofMetadata?, (declaredMembers?_eq_ok_iff hne).2 h,
    declaredMembers?_withoutMembers, vendor?_withoutMembers,
    get?_withoutMembers (by decide) (by decide), get?_withoutMembers (by decide) (by decide),
    ok_bind, ok_bind]
  refine bind_eq_map_bind fun connectability => ?_
  refine bind_eq_map_bind fun displayName => ?_
  refine bind_eq_map_bind fun vendor => ?_
  refine bind_eq_map_bind fun unsupported => ?_
  refine bind_eq_map_bind fun deprecated => ?_
  refine bind_eq_map_bind fun availability => ?_
  simp [Except.map, withMembers, hempty]

lemma members?_of_declares (hne : tokens ≠ []) (h : m.Declares tokens) {a : Annotations}
    (ha : ofMetadata? m = .ok a) : a.members? = some tokens := by
  rw [ofMetadata?_of_declares hne h] at ha
  obtain ⟨rest, -, rfl⟩ := map_eq_ok_iff.1 ha
  rfl

end Annotations

/-! ## Identities -/

namespace EnumRegistry

/-- The node of a declaration matters to the report only. -/
lemma value_declare (r : EnumRegistry) (node node' : String) (members : List String) :
    (r.declare node members).value = (r.declare node' members).value := by
  rw [declare, declare]
  rcases r.byKey.get? (structuralKey members) with _ | id
  · rfl
  · rfl

end EnumRegistry

namespace DraftSocket

/-- The sockets have one enumeration, that of the tokens, at any nodes. -/
structure ShareEnumeration (tokens : List String) (p p' : DraftSocket) : Prop where
  /-- The category is the enumeration to which the key of the tokens leads afterwards. -/
  found : ∀ node l, ∃ id,
    (p.resolve node l).2.enums.byKey.get? (EnumRegistry.structuralKey tokens) = some id ∧
      (p.resolve node l).1.category = .enumerated id
  /-- In a well-formed registry it is the entry with that key. -/
  identity : ∀ node l, l.enums.WellFormed → ∃ e ∈ (p.resolve node l).2.enums.identities,
    e.key = EnumRegistry.structuralKey tokens ∧ (p.resolve node l).1.category = .enumerated e.id
  /-- Each of them does to a registry what the other does. -/
  alike : ∀ node node' l, (p'.resolve node' l).1.category = (p.resolve node l).1.category ∧
    (p'.resolve node' l).2.enums = (p.resolve node l).2.enums
  /-- Behind the one, whatever comes between them, the other gets the same category and registers
  nothing. -/
  later : ∀ node node' l l', l'.Extends (p.resolve node l).2 →
    (p'.resolve node' l').1.category = (p.resolve node l).1.category ∧
      (p'.resolve node' l').2.enums = l'.enums

variable {p p' : DraftSocket} {tokens : List String}

/-- A socket with members declares them. -/
lemma resolve_of_members? (h : p.annotations.members? = some tokens) (node : String) (l : Ledger) :
    (p.resolve node l).1.category = (l.enums.declare node tokens).value.1 ∧
      (p.resolve node l).2.enums = (l.enums.declare node tokens).value.2 := by
  rw [resolve, h]
  exact ⟨rfl, rfl⟩

lemma shareEnumeration (h : p.annotations.members? = some tokens)
    (h' : p'.annotations.members? = some tokens) : ShareEnumeration tokens p p' := by
  have hfound : ∀ node l, ∃ id,
      (p.resolve node l).2.enums.byKey.get? (EnumRegistry.structuralKey tokens) = some id ∧
        (p.resolve node l).1.category = .enumerated id := by
    intro node l
    obtain ⟨hcategory, henums⟩ := resolve_of_members? h node l
    obtain ⟨id, heq, hid⟩ := l.enums.exists_get?_byKey_declare node tokens
    exact ⟨id, henums ▸ hid, hcategory.trans heq⟩
  refine ⟨hfound, fun node l hl => ?_, fun node node' l => ?_, fun node node' l l' hextends => ?_⟩
  · obtain ⟨id, hid, hcategory⟩ := hfound node l
    obtain ⟨e, he, hkey, rfl⟩ := ((wellFormed_resolve node p hl).inStep _ _).1 hid
    exact ⟨e, he, hkey, hcategory⟩
  · obtain ⟨hcategory, henums⟩ := resolve_of_members? h node l
    obtain ⟨hcategory', henums'⟩ := resolve_of_members? h' node' l
    rw [hcategory, henums, hcategory', henums', l.enums.value_declare node' node]
    exact ⟨rfl, rfl⟩
  · obtain ⟨id, hid, hcategory⟩ := hfound node l
    obtain ⟨hcategory', henums'⟩ := resolve_of_members? h' node' l'
    rw [hcategory, hcategory', henums',
      EnumRegistry.declare_of_get?_byKey (hextends.enums.byKey _ _ hid)]
    exact ⟨rfl, rfl⟩

end DraftSocket

/-- The metadata has the tokens as the members of its enumeration, and the way in which they are
declared leaves no trace. -/
structure Schema.Metadata.Enumerates (m : Schema.Metadata) (tokens : List String) : Prop where
  /-- Metadata that says nothing else is read. -/
  alone : m.withoutMembers = [] →
    Annotations.ofMetadata? m = .ok (Annotations.ofMembers tokens)
  /-- The rest of the metadata is read, or refused, as it is without the members. -/
  beside : Annotations.ofMetadata? m
    = (Annotations.ofMetadata? m.withoutMembers).map (·.withMembers tokens)
  /-- A socket shares its enumeration with every socket whose metadata declares the tokens. -/
  shared : ∀ m' : Schema.Metadata, m'.Declares tokens → ∀ p p' : DraftSocket,
    Annotations.ofMetadata? m = .ok p.annotations →
      Annotations.ofMetadata? m' = .ok p'.annotations → p.ShareEnumeration tokens p'

/-- **It does not matter in which way tokens are declared.**  From a text that lists them, with any
blanks and empty entries, from a list under `enum` and from a list under `allowedTokens`, whatever
stands under `enum` then, the same annotations are read, with the tokens as the members.  So all
sockets that declare the tokens have one enumeration. -/
theorem Schema.Metadata.enumerates_of_declares {m : Schema.Metadata} {tokens : List String}
    (hne : tokens ≠ []) (h : m.Declares tokens) : m.Enumerates tokens := by
  have hbeside := Annotations.ofMetadata?_of_declares hne h
  refine ⟨fun halone => ?_, hbeside, fun m' h' p p' hp hp' => ?_⟩
  · rw [hbeside, halone]
    rfl
  · exact DraftSocket.shareEnumeration (Annotations.members?_of_declares hne h hp)
      (Annotations.members?_of_declares hne h' hp')

theorem Schema.Metadata.enumerates_spaces :
    Enumerates [("enum", .string " model,, object ,\tworld ,\n")] ["model", "object", "world"] ∧
      Enumerates [("enum", .array [.string "model", .string "object", .string "world"])]
        ["model", "object", "world"] ∧
      Enumerates [("allowedTokens", .array [.string "model", .string "object", .string "world"]),
        ("enum", .bool true)] ["model", "object", "world"] :=
  ⟨enumerates_of_declares (List.cons_ne_nil _ _)
      (.text rfl rfl (Annotations.tokensOfText_eq_iff.1 (by decide))),
    enumerates_of_declares (List.cons_ne_nil _ _) (.list rfl rfl),
    enumerates_of_declares (List.cons_ne_nil _ _) (.allowedTokens rfl)⟩

end ShaderBindings
