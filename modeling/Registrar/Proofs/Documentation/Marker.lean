/-
# Markers that come from aliases

What a header says by an alias is what a class or a data member is read as.  A word in brackets
stands in another one only if they are the same, since neither word has a bracket in it; and behind
the marker of properties a qualifier stands only where an argument of the alias is its text, since
no argument has a brace in it.
-/
import Mathlib.Data.List.Infix
import Registrar.Documentation.Tag
import Registrar.Proofs.Documentation.Alias

namespace Registrar

namespace Chars

/-! ## Enclosed texts -/

/-- A text with a mark on its left and one on its right. -/
def enclosed (left right : Char) (text : List Char) : List Char :=
  left :: (text ++ [right])

/-- Different texts are different between the same marks. -/
theorem enclosed_inj {left right : Char} {s t : List Char} :
    enclosed left right s = enclosed left right t ↔ s = t := by
  rw [enclosed, enclosed, List.cons.injEq, List.append_left_inj]
  exact and_iff_right rfl

/-- What begins with a mark is not found where the mark does not stand. -/
theorem isInfix_append_iff_of_notMem {mark : Char} {front : List Char} (h : mark ∉ front)
    (part rest : List Char) : mark :: part <:+: front ++ rest ↔ mark :: part <:+: rest := by
  induction front with
  | nil => rfl
  | cons c front ih =>
    rw [List.mem_cons, not_or] at h
    rw [List.cons_append, List.infix_cons_iff, ih h.2, or_iff_right]
    rw [List.cons_prefix_cons]
    exact fun hprefix => h.1 hprefix.1

/-- An enclosed text is found in front of a text only as the enclosed text that stands there. -/
theorem enclosed_isInfix_append_iff {left right : Char} (hmarks : left ≠ right)
    {text first : List Char} (htext : right ∉ text) (hright : right ∉ first) (hleft : left ∉ first)
    (rest : List Char) : enclosed left right text <:+: enclosed left right first ++ rest ↔
      text = first ∨ enclosed left right text <:+: rest := by
  have hprefix : text ++ [right] <+: first ++ right :: rest ↔ text = first := by
    constructor
    · rintro ⟨tail, htail⟩
      rw [List.append_assoc, List.singleton_append] at htail
      exact (append_cons_inj htext hright htail).1
    · rintro rfl
      exact ⟨rest, by simp⟩
  have hsplit : enclosed left right first ++ rest = left :: (first ++ right :: rest) := by
    simp [enclosed]
  -- behind the mark at the front, the next left mark is one of the rest
  have hfront : left ∉ first ++ [right] := by
    simp [hleft, hmarks]
  rw [hsplit, List.infix_cons_iff, enclosed, List.cons_prefix_cons, hprefix]
  have hskip := isInfix_append_iff_of_notMem hfront (text ++ [right]) rest
  rw [List.append_assoc, List.singleton_append] at hskip
  rw [hskip]
  exact or_congr_left (and_iff_right rfl)

/-- Of several enclosed texts, each is found, and no other one. -/
theorem enclosed_isInfix_flatMap_iff {left right : Char} (hmarks : left ≠ right) {text : List Char}
    (htext : right ∉ text) {texts : List (List Char)}
    (htexts : ∀ t ∈ texts, left ∉ t ∧ right ∉ t) :
    enclosed left right text <:+: texts.flatMap (enclosed left right) ↔ text ∈ texts := by
  induction texts with
  | nil => simp [enclosed]
  | cons first texts ih =>
    obtain ⟨hleft, hright⟩ := htexts first List.mem_cons_self
    rw [List.flatMap_cons, enclosed_isInfix_append_iff hmarks htext hright hleft,
      ih fun t ht => htexts t (List.mem_cons_of_mem first ht), List.mem_cons]

end Chars

namespace Doxyfile

/-! ## The shape of markers and qualifiers -/

/-- A word in square brackets. -/
def bracketed (word : String) : String :=
  "[" ++ word ++ "]"

/-- A text in braces. -/
def braced (text : String) : String :=
  r"{" ++ text ++ r"}"

/-- A text of letters, digits and underscores, with at least one of them. -/
def IsWord (word : String) : Prop :=
  word ≠ "" ∧ ∀ c ∈ word.toList, c.isAlphanum = true ∨ c = '_'

/-- A text in which there is no brace. -/
def IsBraceFree (text : String) : Prop :=
  '{' ∉ text.toList ∧ '}' ∉ text.toList

-- the characters of the word are gone through, not all the characters that there are
instance (word : String) : Decidable (IsWord word) :=
  @instDecidableAnd _ _ _ (List.decidableBAll _ _)

instance (text : String) : Decidable (IsBraceFree text) :=
  inferInstanceAs (Decidable (_ ∧ _))

theorem toList_bracketed (word : String) :
    (bracketed word).toList = Chars.enclosed '[' ']' word.toList := by
  simp [bracketed, Chars.enclosed]

theorem toList_braced (text : String) :
    (braced text).toList = Chars.enclosed '{' '}' text.toList := by
  simp [braced, Chars.enclosed]

/-- Different words are different in brackets. -/
theorem bracketed_inj {s t : String} : bracketed s = bracketed t ↔ s = t := by
  rw [← String.toList_inj, toList_bracketed, toList_bracketed, Chars.enclosed_inj,
    String.toList_inj]

/-- Different texts are different in braces. -/
theorem braced_inj {s t : String} : braced s = braced t ↔ s = t := by
  rw [← String.toList_inj, toList_braced, toList_braced, Chars.enclosed_inj, String.toList_inj]

/-- A character that is no letter, digit or underscore does not stand in a word. -/
theorem IsWord.notMem {word : String} (hword : IsWord word) {c : Char} (hc : c.isAlphanum = false)
    (hne : c ≠ '_') : c ∉ word.toList := by
  intro hmem
  rcases hword.2 c hmem with halphanum | hunderscore
  · rw [hc] at halphanum
    exact Bool.false_ne_true halphanum
  · exact hne hunderscore

/-- What stands in brackets is a word if the marker is that of a word. -/
theorem isWord_of_bracketed {word : String} (h : ∃ w, IsWord w ∧ bracketed word = bracketed w) :
    IsWord word := by
  obtain ⟨w, hw, heq⟩ := h
  rwa [bracketed_inj.1 heq]

/-- The name of the alias of a marker is the word in its brackets. -/
theorem aliasName?_bracketed {word : String} (hword : IsWord word) :
    aliasName? (bracketed word) = some word := by
  have hempty : word.toList.isEmpty = false := by
    rw [← Bool.not_eq_true, List.isEmpty_iff, String.toList_eq_nil_iff]
    exact hword.1
  have hparts : word.toList.all isWordPart = true := by
    rw [List.all_eq_true]
    intro c hc
    simpa [isWordPart] using hword.2 c hc
  unfold aliasName?
  rw [toList_bracketed, Chars.enclosed]
  simp only [List.getLast?_concat, List.dropLast_concat, hempty, hparts]
  simp

/-! ## The aliases of markers -/

/-- The alias of a marker for a number of arguments. -/
def markerAlias (word : String) (arity : Nat) : Alias :=
  { name := word, arity := arity, text := bracketed word ++ argumentQualifiers arity }

/-- The qualifiers of an alias are its arguments in braces, from the first to the last. -/
theorem toList_argumentQualifiers (arity : Nat) :
    (argumentQualifiers arity).toList = (List.range arity).flatMap fun i =>
      Chars.enclosed '{' '}' ('\\' :: Nat.toDigits 10 (i + 1)) := by
  rw [argumentQualifiers, String.toList_join, List.flatMap_map]
  simp only [String.toList_append, toList_toString]
  rfl

/-- The line of the alias of a marker is read as the alias that it stands for. -/
theorem isReadable_markerAlias {word : String} (hword : IsWord word) (arity : Nat) :
    (markerAlias word arity).IsReadable where
  equals := hword.notMem (by decide) (by decide)
  brace := hword.notMem (by decide) (by decide)
  name := hword.notMem (by decide) (by decide)
  text := by
    have hfeed : '\n' ∉ word.toList := hword.notMem (by decide) (by decide)
    have hdigits : ∀ n, '\n' ∉ Nat.toDigits 10 n := fun n hn =>
      absurd (isDigit_of_mem_toDigits hn) (by decide)
    show '\n' ∉ (bracketed word ++ argumentQualifiers arity).toList
    rw [String.toList_append, toList_bracketed, toList_argumentQualifiers]
    simp [Chars.enclosed, hfeed, hdigits]

/-- The marker of a word has an alias without arguments. -/
theorem markerAlias?_bracketed {word : String} (hword : IsWord word) :
    markerAlias? (bracketed word) = some (markerAlias word 0) := by
  have htext : bracketed word ++ argumentQualifiers 0 = bracketed word := String.append_empty
  rw [markerAlias?, aliasName?_bracketed hword, markerAlias, htext]
  rfl

/-! ## Filling in the arguments -/

/-- No argument is filled in where there is no backslash. -/
theorem fillIn_append {args : List (List Char)} {front : List Char} (h : '\\' ∉ front)
    (rest : List Char) : fillIn args (front ++ rest) = front ++ fillIn args rest := by
  induction front with
  | nil => rfl
  | cons c front ih =>
    rw [List.mem_cons, not_or] at h
    rw [List.cons_append, fillIn, ih h.2]
    · rfl
    · exact fun _ _ hc _ => h.1 hc.symm

/-- The numbers of the first nine arguments have one digit each. -/
theorem exists_digit (args : List (List Char)) {i : Nat} (hi : i < 9) :
    ∃ digit, Nat.toDigits 10 (i + 1) = [digit] ∧ argument? args digit = args[i]? := by
  have hdigits : ∀ i < 9, (Nat.digitChar (i + 1)).isDigit = true ∧ Nat.digitChar (i + 1) ≠ '0' ∧
      (Nat.digitChar (i + 1)).toNat - '1'.toNat = i := by decide
  obtain ⟨hdigit, hne, hvalue⟩ := hdigits i hi
  refine ⟨Nat.digitChar (i + 1), Nat.toDigits_of_lt_base (by omega), ?_⟩
  rw [argument?, if_pos ⟨hdigit, hne⟩, hvalue]

/-- Each argument stands in braces where its number stood. -/
theorem fillIn_argumentQualifiers {args : List (List Char)} (hargs : args.length ≤ 9) :
    fillIn args (argumentQualifiers args.length).toList =
      args.flatMap (Chars.enclosed '{' '}') := by
  -- for any list of places, since `List.range` does not grow at its front
  have hfill : ∀ places : List Nat, (∀ i ∈ places, i < args.length) →
      fillIn args (places.flatMap fun i =>
        Chars.enclosed '{' '}' ('\\' :: Nat.toDigits 10 (i + 1))) =
      (places.map fun i => args[i]?.getD []).flatMap (Chars.enclosed '{' '}') := by
    intro places hplaces
    induction places with
    | nil => rfl
    | cons i places ih =>
      have hi : i < args.length := hplaces i List.mem_cons_self
      obtain ⟨digit, hdigit, hargument⟩ := exists_digit args (i := i) (by omega)
      rw [List.getElem?_eq_getElem hi] at hargument
      have hrest := ih fun j hj => hplaces j (List.mem_cons_of_mem i hj)
      rw [List.flatMap_cons, List.map_cons, List.flatMap_cons, ← hrest, hdigit,
        List.getElem?_eq_getElem hi]
      simp [Chars.enclosed, fillIn, hargument]
  have hall : ((List.range args.length).map fun i => args[i]?.getD []) = args := by
    apply List.ext_getElem
    · simp
    · intro i _ hi
      simp [hi]
  rw [toList_argumentQualifiers, hfill _ fun i hi => List.mem_range.1 hi, hall]

/-- The alias of a marker expands to the word in brackets and each argument in braces. -/
theorem expand_markerAlias {word : String} (hword : IsWord word) {args : List String}
    (hargs : args.length ≤ 9) :
    ((markerAlias word args.length).expand args).toList = Chars.enclosed '[' ']' word.toList ++
      (args.map String.toList).flatMap (Chars.enclosed '{' '}') := by
  have hslash : '\\' ∉ Chars.enclosed '[' ']' word.toList := by
    have hword' : '\\' ∉ word.toList := hword.notMem (by decide) (by decide)
    simp [Chars.enclosed, hword']
  have hlength : args.length = (args.map String.toList).length := (List.length_map _).symm
  show (String.ofList (fillIn (args.map String.toList)
    (bracketed word ++ argumentQualifiers args.length).toList)).toList = _
  rw [String.toList_ofList, String.toList_append, toList_bracketed, fillIn_append hslash, hlength,
    fillIn_argumentQualifiers (hlength ▸ hargs)]

end Doxyfile

open Doxyfile

/-! ## Reading the markers -/

/-- Every marker is a word in square brackets, and every qualifier is a text in braces that has no
brace in it. -/
structure TagSettings.IsBracketed (tags : TagSettings) : Prop where
  role : ∀ role, ∀ marker ∈ tags.roleMarkers role, ∃ word, IsWord word ∧ marker = bracketed word
  encodable : ∀ marker ∈ tags.encodable, ∃ word, IsWord word ∧ marker = bracketed word
  property : ∃ word, IsWord word ∧ tags.property = bracketed word
  required : ∃ text, text ≠ "" ∧ IsBraceFree text ∧ tags.required = braced text
  enumeration : ∃ text, text ≠ "" ∧ IsBraceFree text ∧ tags.enumeration = braced text
  vector : ∃ text, text ≠ "" ∧ IsBraceFree text ∧ tags.vector = braced text

/-- No marker stands under two roles. -/
def TagSettings.SeparatesRoles (tags : TagSettings) : Prop :=
  ∀ role role' marker, marker ∈ tags.roleMarkers role → marker ∈ tags.roleMarkers role' →
    role = role'

namespace TagSettings

variable {tags : TagSettings}

/-- A marker holds another one only if they are the same. -/
theorem holdsAny_bracketed_iff {markers : List String}
    (hmarkers : ∀ marker ∈ markers, ∃ word, IsWord word ∧ marker = bracketed word) {word : String}
    (hword : IsWord word) :
    holdsAny (bracketed word) markers = true ↔ bracketed word ∈ markers := by
  have hsame : ∀ w, IsWord w →
      (Text.contains (bracketed word) (bracketed w) = true ↔ w = word) := by
    intro w hw
    have hpart := Chars.enclosed_isInfix_append_iff (show '[' ≠ ']' by decide)
      (hw.notMem (by decide) (by decide)) (hword.notMem (c := ']') (by decide) (by decide))
      (hword.notMem (by decide) (by decide)) []
    rw [List.append_nil, ← toList_bracketed, ← toList_bracketed, ← Text.contains_iff_isInfix,
      String.toList_inj] at hpart
    rw [hpart]
    exact or_iff_left (by simp [bracketed])
  rw [holdsAny, List.any_eq_true]
  constructor
  · rintro ⟨marker, hmarker, hholds⟩
    obtain ⟨w, hw, rfl⟩ := hmarkers marker hmarker
    rwa [(hsame w hw).1 hholds] at hmarker
  · exact fun hmem => ⟨bracketed word, hmem, (hsame word hword).2 rfl⟩

/-- The marker of a role, alone in a paragraph, gives this role. -/
theorem paragraphRole?_bracketed (htags : tags.IsBracketed) (hroles : tags.SeparatesRoles)
    {role : Role} {word : String} (hword : IsWord word)
    (hmarker : bracketed word ∈ tags.roleMarkers role) :
    tags.paragraphRole? (bracketed word) = some role := by
  have hholds : ∀ role, holdsAny (bracketed word) (tags.roleMarkers role) = true ↔
      bracketed word ∈ tags.roleMarkers role := fun role =>
    holdsAny_bracketed_iff (htags.role role) hword
  have hstructural : role ∈ Role.structural := by
    cases role with
    | none => exact absurd hmarker List.not_mem_nil
    | component | system | scene => decide
  have hsome : (tags.paragraphRole? (bracketed word)).isSome = true :=
    List.find?_isSome.2 ⟨role, hstructural, (hholds role).2 hmarker⟩
  obtain ⟨found, hfound⟩ := Option.isSome_iff_exists.1 hsome
  have hmem : bracketed word ∈ tags.roleMarkers found := by
    have hfirst :=
      List.find?_some (p := fun r => holdsAny (bracketed word) (tags.roleMarkers r)) hfound
    exact (hholds found).1 hfirst
  rw [hfound, hroles found role _ hmem hmarker]

/-! ## The aliases of the markers -/

/-- Every alias that is written is that of the marker of a word. -/
theorem exists_of_mem_aliases (htags : tags.IsBracketed) {a : Alias} (ha : a ∈ aliases tags) :
    ∃ word arity, IsWord word ∧ a = markerAlias word arity := by
  rcases List.mem_append.1 ha with ha | ha
  · obtain ⟨marker, hmarker, halias⟩ := List.mem_filterMap.1 ha
    have hword : ∃ word, IsWord word ∧ marker = bracketed word := by
      rcases List.mem_append.1 hmarker with hmarker | hmarker
      · obtain ⟨role, -, hmarker⟩ := List.mem_flatMap.1 hmarker
        exact htags.role role marker hmarker
      · exact htags.encodable marker hmarker
    obtain ⟨word, hword, rfl⟩ := hword
    rw [markerAlias?_bracketed hword] at halias
    exact ⟨word, 0, hword, (Option.some.inj halias).symm⟩
  · obtain ⟨word, hword, hproperty⟩ := htags.property
    rw [propertyAliases, hproperty, aliasName?_bracketed hword] at ha
    obtain ⟨arity, -, rfl⟩ := List.mem_map.1 ha
    exact ⟨word, arity, hword, rfl⟩

/-- An alias is written for each marker of a role. -/
theorem markerAlias_mem_of_role {role : Role} {word : String} (hword : IsWord word)
    (hmarker : bracketed word ∈ tags.roleMarkers role) : markerAlias word 0 ∈ aliases tags := by
  have hstructural : role ∈ Role.structural := by
    cases role with
    | none => exact absurd hmarker List.not_mem_nil
    | component | system | scene => decide
  refine List.mem_append_left _ (List.mem_filterMap.2 ⟨_, ?_, markerAlias?_bracketed hword⟩)
  exact List.mem_append_left _ (List.mem_flatMap.2 ⟨role, hstructural, hmarker⟩)

/-- An alias is written for each marker of an encodable class. -/
theorem markerAlias_mem_of_encodable {word : String} (hword : IsWord word)
    (hmarker : bracketed word ∈ tags.encodable) : markerAlias word 0 ∈ aliases tags :=
  List.mem_append_left _ (List.mem_filterMap.2
    ⟨_, List.mem_append_right _ hmarker, markerAlias?_bracketed hword⟩)

/-- An alias is written for the marker of a property, for up to four arguments. -/
theorem markerAlias_mem_of_property {word : String} (hword : IsWord word)
    (hproperty : tags.property = bracketed word) {arity : Nat} (harity : arity ≤ 4) :
    markerAlias word arity ∈ aliases tags := by
  refine List.mem_append_right _ ?_
  rw [propertyAliases, hproperty, aliasName?_bracketed hword]
  exact List.mem_map.2 ⟨arity, List.mem_range.2 (Nat.lt_succ_of_le harity), rfl⟩

/-- A marker whose alias is declared becomes its own text, with each argument in braces behind it.
-/
theorem exists_expansion? {s : Settings} (htags : s.tags.IsBracketed) (input output : Path)
    {word : String} (hword : IsWord word) {args : List String} (hargs : args.length ≤ 9)
    (halias : markerAlias word args.length ∈ aliases s.tags) :
    ∃ text, expansion? (contents input output s) word args = some text ∧
      text.toList = Chars.enclosed '[' ']' word.toList ++
        (args.map String.toList).flatMap (Chars.enclosed '{' '}') := by
  have hreadable : ∀ a ∈ aliases s.tags, a.IsReadable := by
    intro a ha
    obtain ⟨w, arity, hw, rfl⟩ := exists_of_mem_aliases htags ha
    exact isReadable_markerAlias hw arity
  refine ⟨_, expansion?_contents input output hreadable halias (fun b hb hname harity => ?_) rfl,
    expand_markerAlias hword hargs⟩
  -- an alias of a marker is told by its name and by how many arguments it takes
  obtain ⟨w, arity, -, rfl⟩ := exists_of_mem_aliases htags hb
  rw [show w = word from hname, show arity = args.length from harity]

/-- A marker without arguments expands to its word in brackets. -/
theorem expansion?_bare {s : Settings} (htags : s.tags.IsBracketed) (input output : Path)
    {word : String} (hword : IsWord word) (halias : markerAlias word 0 ∈ aliases s.tags) :
    expansion? (contents input output s) word [] = some (bracketed word) := by
  obtain ⟨text, hexpansion, htext⟩ :=
    exists_expansion? htags input output hword
      (show ([] : List String).length ≤ 9 from Nat.zero_le 9) halias
  have hbare : text = bracketed word := by
    rw [← String.toList_inj, toList_bracketed, htext]
    exact List.append_nil _
  rw [hexpansion, hbare]

/-! ## Qualifiers -/

/-- A qualifier stands behind the marker of properties exactly if it is one of the arguments. -/
theorem contains_braced_iff {text : String} {word : String} (hword : IsWord word)
    {args : List String} (hargs : ∀ a ∈ args, IsBraceFree a)
    (htext : text.toList = Chars.enclosed '[' ']' word.toList ++
      (args.map String.toList).flatMap (Chars.enclosed '{' '}'))
    {qualifier : String}
    (hqualifier : ∃ q, q ≠ "" ∧ IsBraceFree q ∧ qualifier = braced q) :
    Text.contains text qualifier = true ↔ ∃ a ∈ args, braced a = qualifier := by
  obtain ⟨q, -, hq, rfl⟩ := hqualifier
  have hfront : '{' ∉ Chars.enclosed '[' ']' word.toList := by
    have hword' : '{' ∉ word.toList := hword.notMem (by decide) (by decide)
    simp [Chars.enclosed, hword']
  have hfree : ∀ t ∈ args.map String.toList, '{' ∉ t ∧ '}' ∉ t := by
    intro t ht
    obtain ⟨a, ha, rfl⟩ := List.mem_map.1 ht
    exact hargs a ha
  have hskip := Chars.isInfix_append_iff_of_notMem hfront (q.toList ++ ['}'])
    ((args.map String.toList).flatMap (Chars.enclosed '{' '}'))
  rw [Text.contains_iff_isInfix, htext, toList_braced]
  refine hskip.trans ((Chars.enclosed_isInfix_flatMap_iff (by decide) hq.2 hfree).trans ?_)
  rw [List.mem_map]
  simp only [String.toList_inj, braced_inj]

/-- The paragraph of a marker with arguments describes a property with these qualifiers. -/
theorem exists_propertyTag? (htags : tags.IsBracketed) {text word : String} (hword : IsWord word)
    (hproperty : bracketed word = tags.property) {args : List String}
    (hargs : ∀ a ∈ args, IsBraceFree a)
    (htext : text.toList = Chars.enclosed '[' ']' word.toList ++
      (args.map String.toList).flatMap (Chars.enclosed '{' '}')) (name : String) :
    ∃ p, tags.propertyTag? name [text] = some p ∧ p.name = name ∧
      (p.isRequired = true ↔ ∃ a ∈ args, braced a = tags.required) ∧
      (p.isEnum = true ↔ ∃ a ∈ args, braced a = tags.enumeration) ∧
      (p.isVector = true ↔ ∃ a ∈ args, braced a = tags.vector) := by
  have hfound : Text.contains text tags.property = true := by
    rw [Text.contains_iff_isInfix, ← hproperty, toList_bracketed, htext]
    exact (List.prefix_append _ _).isInfix
  have hproperty' : tags.propertyTag? name [text] = some
      { name := name, isRequired := Text.contains text tags.required,
        isVector := Text.contains text tags.vector,
        isEnum := Text.contains text tags.enumeration } := by
    have hfind : [text].find? (fun p => Text.contains p tags.property) = some text :=
      List.find?_cons_of_pos hfound
    rw [propertyTag?, hfind]
    rfl
  exact ⟨_, hproperty', rfl, contains_braced_iff hword hargs htext htags.required,
    contains_braced_iff hword hargs htext htags.enumeration,
    contains_braced_iff hword hargs htext htags.vector⟩

/-- What a header says by the aliases that the configuration declares is what the markers are read
as.  The alias of a marker of a role, alone in a paragraph, gives the class this role, and the alias
of a marker of encodable classes makes it one.  The alias of the marker of properties, with up to
four arguments, makes the data member a property, with the qualifiers that are among the arguments
and no others. -/
theorem aliases_agree_with_tags (input output : Path) (s : Settings) (htags : s.tags.IsBracketed)
    (hroles : s.tags.SeparatesRoles) :
    (∀ role word, bracketed word ∈ s.tags.roleMarkers role →
      ∃ text, expansion? (contents input output s) word [] = some text ∧
        (s.tags.classTags [text]).role = some role) ∧
    (∀ word, bracketed word ∈ s.tags.encodable →
      ∃ text, expansion? (contents input output s) word [] = some text ∧
        (s.tags.classTags [text]).isEncodable = true) ∧
    ∀ word args, bracketed word = s.tags.property → args.length ≤ 4 →
      (∀ a ∈ args, IsBraceFree a) →
      ∃ text, expansion? (contents input output s) word args = some text ∧
        ∀ name, ∃ p, s.tags.propertyTag? name [text] = some p ∧ p.name = name ∧
          (p.isRequired = true ↔ ∃ a ∈ args, braced a = s.tags.required) ∧
          (p.isEnum = true ↔ ∃ a ∈ args, braced a = s.tags.enumeration) ∧
          (p.isVector = true ↔ ∃ a ∈ args, braced a = s.tags.vector) := by
  refine ⟨fun role word hmarker => ?_, fun word hmarker => ?_,
    fun word args hproperty hlength hargs => ?_⟩
  · have hword := isWord_of_bracketed (htags.role role _ hmarker)
    refine ⟨bracketed word, expansion?_bare htags input output hword
      (markerAlias_mem_of_role hword hmarker), ?_⟩
    rw [classTags, List.findSome?_cons,
      paragraphRole?_bracketed htags hroles hword hmarker]
  · have hword := isWord_of_bracketed (htags.encodable _ hmarker)
    refine ⟨bracketed word, expansion?_bare htags input output hword
      (markerAlias_mem_of_encodable hword hmarker), ?_⟩
    rw [classTags, List.any_cons, (holdsAny_bracketed_iff htags.encodable hword).2 hmarker]
    rfl
  · have hword : IsWord word := isWord_of_bracketed (hproperty ▸ htags.property)
    obtain ⟨text, hexpansion, htext⟩ := exists_expansion? htags input output hword
      (hlength.trans (by decide)) (markerAlias_mem_of_property hword hproperty.symm hlength)
    exact ⟨text, hexpansion, exists_propertyTag? htags hword hproperty hargs htext⟩

/-- Markers of one word with different meanings, and a qualifier with two. -/
def crossedTags : TagSettings :=
  { component := ["[a]"], system := ["[a_b]", "[b]"], scene := [], encodable := ["[a]"],
    property := "[a]", required := r"{r}", enumeration := r"{r}",
    vector := r"{a r}" }

/-- The crossed markers are words in brackets and texts in braces all the same. -/
theorem isBracketed_crossedTags : crossedTags.IsBracketed where
  role role marker hmarker := by
    have hmem : marker = "[a]" ∨ marker = "[a_b]" ∨ marker = "[b]" := by
      cases role <;> simp_all [crossedTags, roleMarkers]
    rcases hmem with rfl | rfl | rfl
    · exact ⟨"a", by decide, by decide⟩
    · exact ⟨"a_b", by decide, by decide⟩
    · exact ⟨"b", by decide, by decide⟩
  encodable marker hmarker := ⟨"a", by decide, List.mem_singleton.1 hmarker⟩
  property := ⟨"a", by decide, by decide⟩
  required := ⟨"r", by decide, by decide, by decide⟩
  enumeration := ⟨"r", by decide, by decide, by decide⟩
  vector := ⟨"a r", by decide, by decide, by decide⟩

/-- None of the crossed markers stands under two roles. -/
theorem separatesRoles_crossedTags : crossedTags.SeparatesRoles := by
  intro role role' marker h h'
  cases role <;> cases role' <;> simp_all [crossedTags, roleMarkers]

/-- An argument that looks like a number of an argument stays what it is. -/
theorem aliases_agree_with_crossedTags :
    crossedTags.IsBracketed ∧ crossedTags.SeparatesRoles ∧
      bracketed "a_b" ∈ crossedTags.roleMarkers .system ∧
      (∃ text, expansion? (contents ⟨"/src"⟩ ⟨"/out/xml"⟩ { tags := crossedTags }) "a_b" [] =
          some text ∧ (crossedTags.classTags [text]).role = some .system) ∧
      (∀ a ∈ ["\\2", "r"], IsBraceFree a) ∧
      ∃ text, expansion? (contents ⟨"/src"⟩ ⟨"/out/xml"⟩ { tags := crossedTags }) "a" ["\\2", "r"] =
          some text ∧ ∃ p, crossedTags.propertyTag? "x" [text] = some p ∧ p.isRequired = true ∧
            p.isEnum = true ∧ p.isVector ≠ true := by
  have hagree := aliases_agree_with_tags ⟨"/src"⟩ ⟨"/out/xml"⟩ { tags := crossedTags }
    isBracketed_crossedTags separatesRoles_crossedTags
  have hargs : ∀ a ∈ ["\\2", "r"], IsBraceFree a := by decide
  obtain ⟨text, hexpansion, hproperty⟩ := hagree.2.2 "a" ["\\2", "r"] (by decide) (by decide) hargs
  obtain ⟨p, hp, -, hrequired, henum, hvector⟩ := hproperty "x"
  refine ⟨isBracketed_crossedTags, separatesRoles_crossedTags, by decide,
    hagree.1 .system "a_b" (by decide), hargs, text, hexpansion, p, hp, hrequired.2 (by decide),
    henum.2 (by decide), fun h => ?_⟩
  exact absurd (hvector.1 h) (by decide)

end TagSettings

end Registrar
