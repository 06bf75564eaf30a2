import SwiftAccess.Proofs.BufferLines
import SwiftAccess.Proofs.KeywordSite

/-!
# Rewritten lines read as edited tokens

`rewriteLine` edits a line's text at the occurrences of its anchors that `Edit.locate` finds. The
main statement here is that, where those occurrences are the tokens the classifier placed the
change at (`LineChange.Sited`), reading the rewritten line gives the line's tokens with the same
edit made on them (`Classification.editTokens`), and leaves the lexer in the state the line left
it: the text edit and the token edit commute with lexing. The tokens are compared before the
contextual `open` rule, which reads `open` by its neighbours.

Each kind of change is one lemma: the first plain modifier replaced or removed at its whole word,
a modifier word inserted before the first word, after the first word (and an attribute's argument
list), or after the setter modifier; then the setter modifier edited at its own whole word, which
the first edit leaves a keyword site found by the editor.
-/

namespace SwiftAccess

open Lexer Text Edit

/-! ## What the classifier chose -/

namespace LineChange

variable {ts : List Token}

/-- Everything the classifier can make of a line's tokens: the first setter modifier and the first
plain modifier decide, and without either, the first token. -/
theorem ofTokens_cases (ts : List Token) :
    (∃ sk, (ts.filterMap Token.keyword?).find? Keyword.isSetter = some sk ∧
      ((∃ k, (ts.filterMap Token.keyword?).find? Keyword.isAccess = some k ∧
          ofTokens ts = .setterSubstitute ((sk.setterAccess?).getD .internal) k.spelling) ∨
        ((ts.filterMap Token.keyword?).find? Keyword.isAccess = Option.none ∧
          ofTokens ts = .setterInsertAfter ((sk.setterAccess?).getD .internal) sk.spelling))) ∨
    ((ts.filterMap Token.keyword?).find? Keyword.isSetter = Option.none ∧
      ((∃ k, (ts.filterMap Token.keyword?).find? Keyword.isAccess = some k ∧
          ofTokens ts = .substitute k.spelling) ∨
        ((ts.filterMap Token.keyword?).find? Keyword.isAccess = Option.none ∧
          (ofTokens ts = .none ∨
            (∃ k rest, ts = .keyword k :: rest ∧
              (ofTokens ts = .insertBefore k.spelling ∨ ofTokens ts = .insertAfter k.spelling)) ∨
            ∃ a rest, ts = .attribute a :: rest ∧ ofTokens ts = .insertAfter a)))) := by
  unfold ofTokens
  split
  · exact .inr ⟨rfl, .inr ⟨rfl, .inl rfl⟩⟩
  · next first rest =>
    simp only
    split
    · next sk hs =>
      refine .inl ⟨sk, hs, ?_⟩
      split
      · next k hk => exact .inl ⟨k, hk, rfl⟩
      · next hk => exact .inr ⟨hk, rfl⟩
    · next hs =>
      refine .inr ⟨hs, ?_⟩
      split
      · next k hk => exact .inl ⟨k, hk, rfl⟩
      · next hk =>
        refine .inr ⟨hk, ?_⟩
        -- without a modifier, the first token decides
        split
        · next k =>
          split
          · exact .inr (.inl ⟨k, rest, rfl, .inr rfl⟩)
          · split
            · exact .inl rfl
            · exact .inr (.inl ⟨k, rest, rfl, .inl rfl⟩)
        · next a =>
          split
          · exact .inr (.inr ⟨a, rest, rfl, rfl⟩)
          · exact .inl rfl
        · exact .inl rfl

theorem ofTokens_eq_substitute {A : String} (h : ofTokens ts = .substitute A) :
    (ts.filterMap Token.keyword?).find? Keyword.isSetter = Option.none ∧
      ∃ k, (ts.filterMap Token.keyword?).find? Keyword.isAccess = some k ∧ A = k.spelling := by
  rcases ofTokens_cases ts with ⟨sk, -, ⟨k, -, he⟩ | ⟨-, he⟩⟩ |
    ⟨hs, ⟨k, hk, he⟩ | ⟨-, he | ⟨k, rest, -, he | he⟩ | ⟨a, rest, -, he⟩⟩⟩ <;>
    rw [he] at h <;> cases h
  exact ⟨hs, k, hk, rfl⟩

theorem ofTokens_eq_setterSubstitute {s : Access} {A : String}
    (h : ofTokens ts = .setterSubstitute s A) :
    ∃ sk k, (ts.filterMap Token.keyword?).find? Keyword.isSetter = some sk ∧
      (ts.filterMap Token.keyword?).find? Keyword.isAccess = some k ∧ A = k.spelling ∧
      s = sk.setterAccess?.getD .internal := by
  rcases ofTokens_cases ts with ⟨sk, hs, ⟨k, hk, he⟩ | ⟨-, he⟩⟩ |
    ⟨-, ⟨k, -, he⟩ | ⟨-, he | ⟨k, rest, -, he | he⟩ | ⟨a, rest, -, he⟩⟩⟩ <;>
    rw [he] at h <;> cases h
  exact ⟨sk, k, hs, hk, rfl, rfl⟩

theorem ofTokens_eq_setterInsertAfter {s : Access} {A : String}
    (h : ofTokens ts = .setterInsertAfter s A) :
    ∃ sk, (ts.filterMap Token.keyword?).find? Keyword.isSetter = some sk ∧ A = sk.spelling ∧
      s = sk.setterAccess?.getD .internal := by
  rcases ofTokens_cases ts with ⟨sk, hs, ⟨k, -, he⟩ | ⟨-, he⟩⟩ |
    ⟨-, ⟨k, -, he⟩ | ⟨-, he | ⟨k, rest, -, he | he⟩ | ⟨a, rest, -, he⟩⟩⟩ <;>
    rw [he] at h <;> cases h
  exact ⟨sk, hs, rfl, rfl⟩

theorem ofTokens_eq_insertBefore {A : String} (h : ofTokens ts = .insertBefore A) :
    ∃ k rest, ts = .keyword k :: rest ∧ A = k.spelling := by
  rcases ofTokens_cases ts with ⟨sk, -, ⟨k, -, he⟩ | ⟨-, he⟩⟩ |
    ⟨-, ⟨k, -, he⟩ | ⟨-, he | ⟨k, rest, hts, he | he⟩ | ⟨a, rest, -, he⟩⟩⟩ <;>
    rw [he] at h <;> cases h
  exact ⟨k, rest, hts, rfl⟩

end LineChange

/-! ## Spellings -/

theorem Keyword.spelling_head (k : Keyword) : k.spelling.toList.head?.all isNameChar = true := by
  cases k <;> decide

theorem Keyword.spelling_length_of_isAccess {k : Keyword} :
    k.isAccess = true → k.spelling.length ≤ 11 := by
  cases k <;> decide

theorem Keyword.spelling_length_of_isSetter {k : Keyword} :
    k.isSetter = true → 12 ≤ k.spelling.length := by
  cases k <;> decide

/-- A keyword's spelling is not an attribute, so a modifier goes right after it. -/
theorem Keyword.insertionPoint_spelling (k : Keyword) (a : List Char) :
    insertionPoint k.spelling.toList a = some ([], a) := by
  have hhead := Keyword.spelling_head k
  have hat : k.spelling.toList.head? ≠ some '@' := by
    intro h
    rw [h] at hhead
    exact absurd hhead (by decide)
  simp [insertionPoint, hat]

theorem Keyword.isAccess_of_isSetter {k : Keyword} : k.isSetter = true → k.isAccess = false := by
  cases k <;> decide

theorem Keyword.isSetter_eq_false_of_isAccess {k : Keyword} :
    k.isAccess = true → k.isSetter = false := by
  cases k <;> decide

theorem Keyword.spelling_toList_isEmpty (k : Keyword) : k.spelling.toList.isEmpty = false :=
  List.isEmpty_eq_false_iff.2 (Keyword.spelling_word k).1

/-- The level a setter keyword states has that keyword as its setter modifier. -/
theorem Keyword.setterKeyword?_setterAccess {k : Keyword} (h : k.isSetter = true) :
    ((k.setterAccess?).getD .internal).setterKeyword? = some k.spelling := by
  rw [Access.setterKeyword?_eq, Keyword.setterModifier?_setterAccess h]
  rfl

/-- A keyword word at the end of a text that ends in white space is followed by more text. -/
theorem ne_nil_of_blank_end {b S n : List Char} (hS : Solid S)
    (h : (b ++ S ++ n).getLast?.all isBlank = true) : n ≠ [] := by
  rintro rfl
  obtain ⟨c, hc⟩ := Option.isSome_iff_exists.1 (List.getLast?_isSome.2 hS.1)
  rw [List.append_nil, List.getLast?_append_of_ne_nil _ hS.1, hc] at h
  simp [hS.2 c (List.mem_of_getLast? hc)] at h

/-! ## Argument lists -/

theorem closeArguments_eq_some :
    ∀ {e : Nat} {text mid tail : List Char}, closeArguments e text = some (mid, tail) →
      text = mid ++ tail
  | _, [], _, _, h => by simp [closeArguments] at h
  | e, c :: rest, mid, tail, h => by
    simp only [closeArguments] at h
    split at h
    · obtain ⟨⟨m, t⟩, hr, heq⟩ := Option.map_eq_some_iff.1 h
      cases heq
      simp [closeArguments_eq_some hr]
    · split at h
      · split at h
        · simp only [Option.some.injEq, Prod.mk.injEq] at h
          obtain ⟨rfl, rfl⟩ := h
          rfl
        · obtain ⟨⟨m, t⟩, hr, heq⟩ := Option.map_eq_some_iff.1 h
          cases heq
          simp [closeArguments_eq_some hr]
      · obtain ⟨⟨m, t⟩, hr, heq⟩ := Option.map_eq_some_iff.1 h
        cases heq
        simp [closeArguments_eq_some hr]

/-- The insertion point cuts the text after the anchor in two. -/
theorem insertionPoint_eq_some {anchor after mid tail : List Char}
    (h : insertionPoint anchor after = some (mid, tail)) : after = mid ++ tail := by
  unfold insertionPoint at h
  split at h
  · exact closeArguments_eq_some h
  · simp only [Option.some.injEq, Prod.mk.injEq] at h
    obtain ⟨rfl, rfl⟩ := h
    rfl

theorem Lexer.plain_of_blank {x : List Char} (h : ∀ c ∈ x, isBlank c = true) : Plain x := by
  intro c hc
  have := h c hc
  constructor <;> (rintro rfl; exact absurd this (by decide))

theorem getLast_blank_of_blank {x : List Char} (h : ∀ c ∈ x, isBlank c = true) :
    x.getLast?.all isBlank = true := by
  cases hx : x.getLast? with
  | none => rfl
  | some c => exact h c (List.mem_of_getLast? hx)

/-! ## Edits of the text at a found anchor -/

namespace Edit

theorem substitute_of_ne_nil {line anchor b a R : List Char} (hloc : locate line anchor = some (b, a))
    (hR : R.isEmpty = false) : substitute line anchor R = b ++ R ++ a := by
  simp [substitute, hloc, hR]

theorem substitute_nil_space {line anchor b a : List Char}
    (hloc : locate line anchor = some (b, ' ' :: a)) : substitute line anchor [] = b ++ a := by
  simp only [substitute, hloc, List.isEmpty_nil, if_true]

theorem substitute_nil_of_ne {line anchor b a : List Char} (hloc : locate line anchor = some (b, a))
    (ha : ∀ a', a ≠ ' ' :: a') : substitute line anchor [] = line := by
  simp only [substitute, hloc, List.isEmpty_nil, if_true]

end Edit

theorem Lexer.rawScan_head_of_scanLine {st : State} {line : List Char} {k : Keyword}
    {rest : List Token} (hts : (scanLine st line).1 = .keyword k :: rest) :
    (rawScan st line).1.head? = some (.keyword k) := by
  have h0 : (demoteOpen (rawScan st line).1)[0]? = some (.keyword k) := by
    have := congrArg Prod.fst (scanLine_eq st line)
    simp only [hts] at this
    rw [← this]
    rfl
  rw [List.head?_eq_getElem?]
  exact demoteOpen.go_getElem?_keyword none _ 0 h0

/-- The plain modifier's site and the setter modifier's, two different whole words of one line,
stand one before the other. -/
theorem Lexer.KeywordSite.ordered {st : State} {line : List Char} {k sk : Keyword}
    {b1 a1 b2 a2 : List Char}
    (h1 : KeywordSite st line k b1 a1) (h2 : KeywordSite st line sk b2 a2)
    (hne : k.spelling.toList ≠ sk.spelling.toList) :
    (∃ n, b2 = b1 ++ k.spelling.toList ++ n ∧ a1 = n ++ sk.spelling.toList ++ a2) ∨
      (∃ n, b1 = b2 ++ sk.spelling.toList ++ n ∧ a2 = n ++ k.spelling.toList ++ a1) :=
  whole_words_ordered (solid_spelling k) (solid_spelling sk) hne
    (h1.split.symm.trans h2.split) h1.left h1.right h2.left h2.right

/-! ## Each kind of change -/

section

variable {st : State} (hc : st.inComment = false) (hs : st.inString = false)
include hc hs

/-- A modifier written before the line's first word, a keyword, is a new first token. -/
theorem relex_insertBefore {line : List Char} {k : Keyword} {rest : List Token}
    (hts : (scanLine st line).1 = .keyword k :: rest) (hw : FirstWord line k.spelling)
    (k' : Keyword) :
    rawScan st (applyChange line (.insertBefore k.spelling) k'.spelling.toList) =
      (.keyword k' :: (rawScan st line).1, (rawScan st line).2) := by
  obtain ⟨lead, z, hloc, hlead⟩ := hw
  have hline : line = lead ++ (k.spelling.toList ++ z) := by
    rw [(locate_eq_some hloc).1, List.append_assoc]
  have hplain := Lexer.plain_of_blank hlead
  have hend := getLast_blank_of_blank hlead
  have hwl : words lead = [] := words_eq_nil hlead
  -- the line's words start at the anchor
  have hraw : rawScan st line = rawScan st (k.spelling.toList ++ z) := by
    rw [hline, rawScan_append hc hs hplain (.inl hend), hwl]
    rfl
  -- its first token is a keyword, so it starts outside parentheses
  have hdepth : st.parenDepth = 0 := by
    obtain ⟨c, w, hcw⟩ := List.exists_cons_of_ne_nil (Keyword.spelling_word k).1
    have hn : isNameChar c = true := by simpa [hcw] using Keyword.spelling_head k
    have hhead := rawScan_head_of_scanLine hts
    rw [hraw, hcw] at hhead
    exact parenDepth_of_head_keyword hc hs hn hhead
  have hsl : stripLiterals lead = lead := hplain.stripLiterals_eq
  have hd : (leading st lead (k.spelling.toList ++ z)).2.parenDepth = 0 := by
    rw [leading, hsl, hwl, scanWords, codeState_parenDepth hc hs, hdepth]
  have := rawScan_insertBefore hc hs hplain.plainCode hend (k.spelling.toList ++ z) k' hd
  rw [← hline, leading, hsl, hwl] at this
  simp only [applyChange, Keyword.spelling_toList_isEmpty, hloc]
  simpa [scanWords] using this

/-- A modifier written after the line's first word, and after an attribute's argument list, is a
new token after those of the anchor and the list. -/
theorem relex_insertAfter {line : List Char} {A : String} (hw : FirstWord line A)
    (hroom : PostfixRoom st line A) (k' : Keyword) :
    applyChange line (.insertAfter A) k'.spelling.toList = line ∨
      rawScan st (applyChange line (.insertAfter A) k'.spelling.toList) =
        ((rawScan st line).1.insertIdx (postfixWidth st line A) (.keyword k'),
         (rawScan st line).2) := by
  obtain ⟨lead, rest, hloc, hlead⟩ := hw
  cases hip : insertionPoint A.toList rest with
  | none =>
    left
    simp [applyChange, Keyword.spelling_toList_isEmpty, hloc, hip]
  | some p =>
    obtain ⟨mid, tail⟩ := p
    right
    obtain ⟨hplain, htail, hdepth⟩ := hroom lead rest mid tail hloc hip
    have hline : line = lead ++ (A.toList ++ mid) ++ tail := by
      rw [(locate_eq_some hloc).1, insertionPoint_eq_some hip]
      simp
    have hx : Plain (lead ++ (A.toList ++ mid)) := (Lexer.plain_of_blank hlead).append hplain
    have hwl : words (lead ++ (A.toList ++ mid)) = words (A.toList ++ mid) := by
      rw [words_append _ _ (.inl (getLast_blank_of_blank hlead)), words_eq_nil hlead,
        List.nil_append]
    -- the argument list closes what it opens, so the modifier lands outside parentheses
    have hsx : stripLiterals (lead ++ (A.toList ++ mid)) = lead ++ (A.toList ++ mid) :=
      hx.stripLiterals_eq
    have hd : (leading st (lead ++ (A.toList ++ mid)) tail).2.parenDepth = 0 := by
      rw [leading, hsx, scanWords_words_depth (codeState_inComment hc hs tail) hx,
        codeState_parenDepth hc hs, depthAfter_append,
        depthAfter_of_neutral fun c hc => neutral_of_isBlank (hlead c hc)]
      exact hdepth
    have hwidth : postfixWidth st line A = (leading st (lead ++ (A.toList ++ mid)) tail).1.length := by
      simp only [postfixWidth, hloc, hip]
      rw [length_scanLine_plain hc hs hplain tail, leading, hsx, hwl]
    have := rawScan_insertAfter hc hs hx.plainCode htail k' hd
    rw [← hline] at this
    rw [hwidth]
    simp only [applyChange, Keyword.spelling_toList_isEmpty, hloc, hip]
    simpa using this

/-- Before a keyword site placed at the first setter modifier no setter modifier is read. -/
theorem Lexer.KeywordSite.noSetter {line : List Char} {k : Keyword} {b a : List Char}
    (h : KeywordSite st line k b a)
    (hi : (leading st b a).1.length = (scanLine st line).1.findIdx Token.isSetterModifier) :
    ∀ t ∈ (leading st b a).1, t.isSetterModifier = false := by
  intro t ht
  obtain ⟨j, hj, rfl⟩ := List.getElem_of_mem ht
  apply isSetterModifier_of_lt_findIdx (hi ▸ hj)
  rw [h.rawScan_eq hc hs, List.getElem?_append_left hj, List.getElem?_eq_getElem hj]

/-- The first plain modifier, replaced at its whole word, is a replaced token; removed with the
space after it, a removed token. -/
theorem relex_substitute {line : List Char} {k : Keyword}
    (hk : ((scanLine st line).1.filterMap Token.keyword?).find? Keyword.isAccess = some k)
    (hw : WholeWord (scanLine st line).1 line k.spelling) (written : Option Keyword) :
    applyChange line (.substitute k.spelling) ((written.map Keyword.spelling).getD "").toList =
        line ∨
      rawScan st (applyChange line (.substitute k.spelling)
          ((written.map Keyword.spelling).getD "").toList) =
        ((LineChange.substitute k.spelling).onTokens (scanLine st line).1 0 written
          (rawScan st line).1, (rawScan st line).2) := by
  obtain ⟨b, a, hloc, h, hi⟩ := keywordSite_of_wholeWord hc hs hw (getElem?_findIdx_of_find? hk)
  have hi' : (leading st b a).1.length = (scanLine st line).1.findIdx Token.isAccessModifier := hi
  simp only [applyChange, LineChange.onTokens]
  cases written with
  | some k' =>
    right
    rw [Option.map_some, Option.getD_some,
      substitute_of_ne_nil hloc (Keyword.spelling_toList_isEmpty k'), ← hi']
    exact (h.rawScan_set hc hs k').1
  | none =>
    rw [Option.map_none, Option.getD_none, String.toList_empty]
    by_cases ha : ∃ a', a = ' ' :: a'
    · obtain ⟨a', rfl⟩ := ha
      right
      rw [substitute_nil_space hloc, ← hi']
      exact h.rawScan_erase hc hs (.inr rfl)
    · left
      exact substitute_nil_of_ne hloc fun a' h' => ha ⟨a', h'⟩

/-- The rest of a line after a keyword word that starts with white space sets the state the rest
after the word sets. -/
theorem codeState_keyword_cons (k : Keyword) {a : List Char} (ha : a.head?.all isBlank = true) :
    codeState st (' ' :: k.spelling.toList ++ a) = codeState st a := by
  rw [List.cons_append, (codeWords_blank_cons hc hs isBlank_space _).2,
    (codeWords_append_code hc hs (Keyword.plainCode_spelling k) (.inr ha)).2]

/-- A modifier written after the setter modifier is a new token after it, and the setter modifier
is then edited at its own word. -/
theorem relex_setterInsertAfter {line : List Char} {sk : Keyword}
    (hsk : ((scanLine st line).1.filterMap Token.keyword?).find? Keyword.isSetter = some sk)
    (hw : WholeWord (scanLine st line).1 line sk.spelling) (written : Option Keyword)
    (e : SetterEdit) :
    rawScan st (applySetter (applyChange line (.setterInsertAfter ((sk.setterAccess?).getD .internal)
        sk.spelling) ((written.map Keyword.spelling).getD "").toList)
        ((sk.setterAccess?).getD .internal) e) =
      (e.onTokens ((LineChange.setterInsertAfter ((sk.setterAccess?).getD .internal)
        sk.spelling).onTokens (scanLine st line).1 0 written (rawScan st line).1),
       (rawScan st line).2) := by
  obtain ⟨b, a, hloc, h, hi⟩ := keywordSite_of_wholeWord hc hs hw (getElem?_findIdx_of_find? hsk)
  have hi' : (leading st b a).1.length = (scanLine st line).1.findIdx Token.isSetterModifier := hi
  have hset : sk.isSetter = true := List.find?_some hsk
  have hlevel := Keyword.setterKeyword?_setterAccess hset
  have hnone := h.noSetter hc hs hi'
  cases written with
  | none =>
    simp only [applyChange, Option.map_none, Option.getD_none, String.toList_empty,
      List.isEmpty_nil, if_true, LineChange.onTokens]
    exact h.rawScan_applySetter hc hs hloc hnone hset hlevel e
  | some k' =>
    simp only [applyChange, Option.map_some, Option.getD_some, Keyword.spelling_toList_isEmpty,
      hloc, Keyword.insertionPoint_spelling, LineChange.onTokens, Bool.false_eq_true, if_false,
      List.append_nil]
    -- the new word is one more token after the setter modifier
    have hx : PlainCode (b ++ sk.spelling.toList) :=
      h.plain.append (Keyword.plainCode_spelling sk) (.inl h.left)
    have hlead := leading_keyword hc hs h.plain h.left (y := []) (by rfl) sk (a := a)
    simp only [List.append_nil, stripLiterals_nil, words_nil, scanWords, List.append_nil] at hlead
    have hd : (leading st (b ++ sk.spelling.toList) a).2.parenDepth = 0 := by
      rw [hlead]
      exact h.depth
    have hraw1 := rawScan_insertAfter hc hs hx h.right k' hd
    rw [← h.split, hlead, List.length_append, List.length_singleton, hi'] at hraw1
    -- the setter modifier stays where the editor finds it
    obtain ⟨h1, hl1, hloc1⟩ := h.of_suffix hloc (' ' :: k'.spelling.toList ++ a)
      (by simp [isBlank_space]) (codeState_keyword_cons hc hs k' h.right)
    have hsplit : b ++ sk.spelling.toList ++ ' ' :: k'.spelling.toList ++ a =
        b ++ sk.spelling.toList ++ (' ' :: k'.spelling.toList ++ a) := by simp
    rw [hsplit, h1.rawScan_applySetter hc hs hloc1 (hl1 ▸ hnone) hset hlevel e, ← hsplit, hraw1]

/-- The setter modifier's site stays one the editor finds, with no setter modifier read before it,
when the plain modifier is replaced by a shorter keyword that is no setter modifier: before the
site, since the words before it leave the lexer as they did; after it, since the text after it sets
the same state. -/
theorem Lexer.KeywordSite.setterSite_of_set {line : List Char} {k sk k' : Keyword}
    {b1 a1 b2 a2 : List Char} (h1 : KeywordSite st line k b1 a1) (h2 : KeywordSite st line sk b2 a2)
    (hloc2 : locate line sk.spelling.toList = some (b2, a2))
    (hnone2 : ∀ t ∈ (leading st b2 a2).1, t.isSetterModifier = false)
    (hne : k.spelling.toList ≠ sk.spelling.toList)
    (hlen : k'.spelling.length < sk.spelling.length) (hk' : k'.isSetter = false) :
    ∃ b a, KeywordSite st (b1 ++ k'.spelling.toList ++ a1) sk b a ∧
      locate (b1 ++ k'.spelling.toList ++ a1) sk.spelling.toList = some (b, a) ∧
      ∀ t ∈ (leading st b a).1, t.isSetterModifier = false := by
  rcases h1.ordered h2 hne with ⟨n, rfl, rfl⟩ | ⟨n, rfl, rfl⟩
  · -- the setter modifier stands after the plain one
    have hn : (n ++ (sk.spelling.toList ++ a2)).head?.all isBlank = true := by
      rw [← List.append_assoc]
      exact h1.right
    obtain ⟨h2', hloc2', hnone2'⟩ := h2.of_prefix_set hc hs hloc2 h1.plain h1.left
      (head_blank_of_append hn) hlen hk'
    have hsplit : b1 ++ k'.spelling.toList ++ (n ++ sk.spelling.toList ++ a2) =
        b1 ++ k'.spelling.toList ++ n ++ sk.spelling.toList ++ a2 := by simp
    rw [hsplit]
    exact ⟨_, _, h2', hloc2', hnone2' hnone2⟩
  · -- the setter modifier stands before the plain one
    have hnne : n ≠ [] := ne_nil_of_blank_end (solid_spelling sk) h1.left
    have hn : n.head?.all isBlank = true := by
      have := h2.right
      rw [List.append_assoc] at this
      exact head_blank_of_append this
    have hnp : PlainCode n :=
      h1.plain.of_append (h2.plain.append (Keyword.plainCode_spelling sk) (.inl h2.left))
    have hnend : n.getLast?.all isBlank = true := by
      have := h1.left
      rwa [List.getLast?_append_of_ne_nil _ hnne] at this
    have hstate : codeState st (n ++ k'.spelling.toList ++ a1) =
        codeState st (n ++ k.spelling.toList ++ a1) := by
      rw [(codeWords_append_code hc hs (hnp.append (Keyword.plainCode_spelling k') (.inl hnend))
          (.inr h1.right)).2,
        (codeWords_append_code hc hs (hnp.append (Keyword.plainCode_spelling k) (.inl hnend))
          (.inr h1.right)).2]
    obtain ⟨h2', hl2, hloc2'⟩ := h2.of_suffix hloc2 (n ++ k'.spelling.toList ++ a1)
      (by rw [List.append_assoc, List.head?_append_of_ne_nil _ hnne]; exact hn) hstate
    have hsplit : b2 ++ sk.spelling.toList ++ n ++ k'.spelling.toList ++ a1 =
        b2 ++ sk.spelling.toList ++ (n ++ k'.spelling.toList ++ a1) := by simp
    rw [hsplit]
    exact ⟨_, _, h2', hloc2', hl2 ▸ hnone2⟩


/-- The setter modifier's site stays one the editor finds, with no setter modifier read before it,
when the plain modifier is removed with the space after it. -/
theorem Lexer.KeywordSite.setterSite_of_erase {line : List Char} {k sk : Keyword}
    {b1 a b2 a2 : List Char} (h1 : KeywordSite st line k b1 (' ' :: a))
    (h2 : KeywordSite st line sk b2 a2) (hloc2 : locate line sk.spelling.toList = some (b2, a2))
    (hnone2 : ∀ t ∈ (leading st b2 a2).1, t.isSetterModifier = false)
    (hne : k.spelling.toList ≠ sk.spelling.toList) :
    ∃ b a', KeywordSite st (b1 ++ a) sk b a' ∧ locate (b1 ++ a) sk.spelling.toList = some (b, a') ∧
      ∀ t ∈ (leading st b a').1, t.isSetterModifier = false := by
  rcases h1.ordered h2 hne with ⟨n, rfl, hn⟩ | ⟨n, rfl, rfl⟩
  · -- the setter modifier stands after the plain one, past the removed space
    obtain ⟨n', rfl⟩ : ∃ n', n = ' ' :: n' := by
      cases n with
      | nil =>
        have := congrArg List.head? hn
        simp only [List.head?_cons, List.nil_append] at this
        rw [List.head?_append_of_ne_nil _ (solid_spelling sk).1] at this
        have hS := Keyword.spelling_head sk
        rw [← this] at hS
        exact absurd hS (by decide)
      | cons c n' =>
        simp only [List.cons_append, List.cons.injEq] at hn
        exact ⟨n', by rw [hn.1]⟩
    simp only [List.cons_append, List.cons.injEq, true_and] at hn
    subst hn
    obtain ⟨h2', hloc2', hnone2'⟩ := h2.of_prefix_erase hc hs hloc2 h1.plain h1.left
    have hsplit : b1 ++ (n' ++ sk.spelling.toList ++ a2) = b1 ++ n' ++ sk.spelling.toList ++ a2 := by
      simp
    rw [hsplit]
    exact ⟨_, _, h2', hloc2', hnone2' hnone2⟩
  · -- the setter modifier stands before the plain one
    have hnne : n ≠ [] := ne_nil_of_blank_end (solid_spelling sk) h1.left
    have hn : n.head?.all isBlank = true := by
      have := h2.right
      rw [List.append_assoc] at this
      exact head_blank_of_append this
    have hnp : PlainCode n :=
      h1.plain.of_append (h2.plain.append (Keyword.plainCode_spelling sk) (.inl h2.left))
    have hnend : n.getLast?.all isBlank = true := by
      have := h1.left
      rwa [List.getLast?_append_of_ne_nil _ hnne] at this
    have hstate : codeState st (n ++ a) = codeState st (n ++ k.spelling.toList ++ ' ' :: a) := by
      rw [(codeWords_append_code hc hs hnp (.inl hnend)).2,
        (codeWords_append_code hc hs (hnp.append (Keyword.plainCode_spelling k) (.inl hnend))
          (.inr (by simp [isBlank_space]))).2,
        (codeWords_blank_cons hc hs isBlank_space a).2]
    obtain ⟨h2', hl2, hloc2'⟩ := h2.of_suffix hloc2 (n ++ a)
      (by rw [List.head?_append_of_ne_nil _ hnne]; exact hn) hstate
    have hsplit : b2 ++ sk.spelling.toList ++ n ++ a = b2 ++ sk.spelling.toList ++ (n ++ a) := by
      simp
    rw [hsplit]
    exact ⟨_, _, h2', hloc2', hl2 ▸ hnone2⟩

/-- The plain modifier replaced or removed, and then the setter modifier edited: each at its own
whole word, in whichever order they stand. -/
theorem relex_setterSubstitute {line : List Char} {sk k : Keyword}
    (hsk : ((scanLine st line).1.filterMap Token.keyword?).find? Keyword.isSetter = some sk)
    (hk : ((scanLine st line).1.filterMap Token.keyword?).find? Keyword.isAccess = some k)
    (hw : WholeWord (scanLine st line).1 line k.spelling)
    (hws : WholeWord (scanLine st line).1 line sk.spelling)
    (written : Option Keyword) (hwritten : ∀ k', written = some k' → k'.isAccess = true)
    (hspace : written = none → SpaceAfter line k.spelling) (e : SetterEdit) :
    rawScan st (applySetter (applyChange line (.setterSubstitute ((sk.setterAccess?).getD .internal)
        k.spelling) ((written.map Keyword.spelling).getD "").toList)
        ((sk.setterAccess?).getD .internal) e) =
      (e.onTokens ((LineChange.setterSubstitute ((sk.setterAccess?).getD .internal)
        k.spelling).onTokens (scanLine st line).1 0 written (rawScan st line).1),
       (rawScan st line).2) := by
  obtain ⟨b1, a1, hloc1, h1, hi1⟩ := keywordSite_of_wholeWord hc hs hw (getElem?_findIdx_of_find? hk)
  obtain ⟨b2, a2, hloc2, h2, hi2⟩ :=
    keywordSite_of_wholeWord hc hs hws (getElem?_findIdx_of_find? hsk)
  have hi1' : (leading st b1 a1).1.length = (scanLine st line).1.findIdx Token.isAccessModifier :=
    hi1
  have hi2' : (leading st b2 a2).1.length = (scanLine st line).1.findIdx Token.isSetterModifier :=
    hi2
  have hset : sk.isSetter = true := List.find?_some hsk
  have hlevel := Keyword.setterKeyword?_setterAccess hset
  have hnone2 := h2.noSetter hc hs hi2'
  -- the two modifiers are different words
  have hne : k.spelling.toList ≠ sk.spelling.toList := by
    intro heq
    have := Keyword.spelling_injective (String.toList_inj.1 heq)
    subst this
    exact absurd (List.find?_some hk) (by simp [Keyword.isAccess_of_isSetter hset])
  simp only [applyChange, LineChange.onTokens]
  cases written with
  | some k' =>
    have hk' := hwritten k' rfl
    have hlen : k'.spelling.length < sk.spelling.length := Nat.lt_of_le_of_lt
      (Keyword.spelling_length_of_isAccess hk') (Keyword.spelling_length_of_isSetter hset)
    rw [Option.map_some, Option.getD_some,
      substitute_of_ne_nil hloc1 (Keyword.spelling_toList_isEmpty k'), ← hi1']
    obtain ⟨b, a, h2', hloc2', hnone2'⟩ := h1.setterSite_of_set hc hs h2 hloc2 hnone2 hne hlen
      (Keyword.isSetter_eq_false_of_isAccess hk')
    rw [h2'.rawScan_applySetter hc hs hloc2' hnone2' hset hlevel e, (h1.rawScan_set hc hs k').1]
  | none =>
    obtain ⟨b, a, hspace⟩ := hspace rfl
    rw [hloc1] at hspace
    simp only [Option.some.injEq, Prod.mk.injEq] at hspace
    obtain ⟨rfl, rfl⟩ := hspace
    rw [Option.map_none, Option.getD_none, String.toList_empty, substitute_nil_space hloc1, ← hi1']
    obtain ⟨b', a', h2', hloc2', hnone2'⟩ := h1.setterSite_of_erase hc hs h2 hloc2 hnone2 hne
    rw [h2'.rawScan_applySetter hc hs hloc2' hnone2' hset hlevel e, h1.rawScan_erase hc hs (.inr rfl)]

end

/-! ## A rewritten line -/

/-- A line with a setter modifier, where the editor finds each anchor at the token the classifier
placed the change at, always reads rewritten as its tokens with the change made on them, and
leaves the lexer in the state the line left it. -/
theorem scanLine_rewriteLine_setter {st : State} (hc : st.inComment = false)
    (hs : st.inString = false) {line : String} {c : Classification} {ac : AccessChange}
    {r : Resolution} {sp : Access}
    (hchange : c.change = LineChange.ofTokens (scanLine st line.toList).1)
    (hr : ac.resolve c.current = some r)
    (hsite : c.change.Sited st (scanLine st line.toList).1 line.toList r.replacement.isEmpty)
    (hset : c.change.setter? = some sp) :
    scanLine st (rewriteLine line c ac).toList =
      (demoteOpen (c.editTokens st line.toList ac r), (scanLine st line.toList).2) := by
  suffices h : rawScan st (rewriteLine line c ac).toList =
      (c.editTokens st line.toList ac r, (rawScan st line.toList).2) by
    rw [scanLine_eq, h, scanLine_eq]
  have hrep : r.replacement = (r.target.modifier?.map Keyword.spelling).getD "" := by
    rw [AccessChange.resolve_replacement hr, Access.replacement_eq]
  have hwritten : ∀ k, r.target.modifier? = some k → k.isAccess = true :=
    fun k h => (Access.modifier?_isAccess h).1
  simp only [rewriteLine, hr, Classification.editTokens]
  rw [hrep]
  rw [hrep] at hsite
  generalize r.target.modifier? = written at hwritten hsite ⊢
  cases hch : c.change with
  | setterSubstitute s A =>
    rw [hch] at hchange
    obtain ⟨sk, k, hsk, hk, rfl, rfl⟩ := LineChange.ofTokens_eq_setterSubstitute hchange.symm
    rw [hch] at hsite
    obtain ⟨hw, hspace, hws⟩ := hsite
    have hws' := hws sk.spelling (Keyword.setterKeyword?_setterAccess (List.find?_some hsk))
    simp only [LineChange.setter?, String.toList_ofList]
    exact relex_setterSubstitute hc hs hsk hk hw hws' written hwritten
      (fun hnone => hspace (by simp [hnone])) _
  | setterInsertAfter s A =>
    rw [hch] at hchange
    obtain ⟨sk, hsk, rfl, rfl⟩ := LineChange.ofTokens_eq_setterInsertAfter hchange.symm
    rw [hch] at hsite
    simp only [LineChange.setter?, String.toList_ofList]
    exact relex_setterInsertAfter hc hs hsk hsite written _
  | none | insertBefore _ | insertAfter _ | substitute _ =>
    rw [hch] at hset
    cases hset

/-- Where the editor finds each anchor at the token the classifier placed the change at, a
rewritten line is the line itself, or it reads as the line's tokens with the change made on them
and leaves the lexer in the state the line left it. -/
theorem scanLine_rewriteLine {st : State} (hc : st.inComment = false) (hs : st.inString = false)
    {line : String} {c : Classification} {ac : AccessChange} {r : Resolution}
    (hchange : c.change = LineChange.ofTokens (scanLine st line.toList).1)
    (hr : ac.resolve c.current = some r)
    (hsite : c.change.Sited st (scanLine st line.toList).1 line.toList r.replacement.isEmpty) :
    rewriteLine line c ac = line ∨
      scanLine st (rewriteLine line c ac).toList =
        (demoteOpen (c.editTokens st line.toList ac r), (scanLine st line.toList).2) := by
  cases hset : c.change.setter? with
  | some sp => exact .inr (scanLine_rewriteLine_setter hc hs hchange hr hsite hset)
  | none => ?_
  -- the contextual rule is read off the raw tokens on both sides
  suffices h : rewriteLine line c ac = line ∨
      rawScan st (rewriteLine line c ac).toList =
        (c.editTokens st line.toList ac r, (rawScan st line.toList).2) by
    refine h.imp id fun h => ?_
    rw [scanLine_eq, h, scanLine_eq]
  have hrep : r.replacement = (r.target.modifier?.map Keyword.spelling).getD "" := by
    rw [AccessChange.resolve_replacement hr, Access.replacement_eq]
  have hwritten : ∀ k, r.target.modifier? = some k → k.isAccess = true :=
    fun k h => (Access.modifier?_isAccess h).1
  simp only [rewriteLine, hr, Classification.editTokens]
  rw [hrep]
  rw [hrep] at hsite
  generalize r.target.modifier? = written at hwritten hsite ⊢
  cases hch : c.change with
  | none =>
    left
    simp [applyChange, LineChange.setter?]
  | substitute A =>
    rw [hch] at hchange
    obtain ⟨-, k, hk, rfl⟩ := LineChange.ofTokens_eq_substitute hchange.symm
    rw [hch] at hsite
    simp only [LineChange.setter?, String.toList_ofList]
    refine (relex_substitute hc hs hk hsite written).imp (fun h => ?_) id
    rw [h, String.ofList_toList]
  | insertBefore A =>
    rw [hch] at hchange
    obtain ⟨k, rest, hts, rfl⟩ := LineChange.ofTokens_eq_insertBefore hchange.symm
    rw [hch] at hsite
    simp only [LineChange.setter?, String.toList_ofList]
    cases written with
    | none =>
      left
      simp [applyChange]
    | some k' =>
      right
      simpa [LineChange.onTokens] using relex_insertBefore hc hs hts hsite k'
  | insertAfter A =>
    rw [hch] at hsite
    simp only [LineChange.setter?, String.toList_ofList]
    cases written with
    | none =>
      left
      simp [applyChange]
    | some k' =>
      refine (relex_insertAfter hc hs hsite.1 hsite.2 k').imp (fun h => ?_) (fun h => ?_)
      · simpa [String.ofList_toList] using congrArg String.ofList h
      · simpa [LineChange.onTokens] using h
  | setterSubstitute _ _ | setterInsertAfter _ _ =>
    rw [hch] at hset
    cases hset

/-- A line of a buffer, rewritten, is the line itself, or it reads, from the state the lines above
it leave, as the line's tokens with its change made on them, and leaves the lexer in the state the
line left it: wherever the line starts in code and the editor finds each anchor at the token the
classifier placed the change at. -/
theorem rewriteLine_relexes_as_edited_tokens {lines : List String} {i : Nat} {line : String}
    {c : Classification} {ac : AccessChange} {r : Resolution}
    (hline : lines[i]? = some line) (hclass : (Buffer.ofLines lines).classes[i]? = some c)
    (hr : ac.resolve c.current = some r)
    (hc : (stateBefore lines i).inComment = false) (hs : (stateBefore lines i).inString = false)
    (hsite : c.change.Sited (stateBefore lines i) (scanLine (stateBefore lines i) line.toList).1
      line.toList r.replacement.isEmpty) :
    rewriteLine line c ac = line ∨
      scanLine (stateBefore lines i) (rewriteLine line c ac).toList =
        (demoteOpen (c.editTokens (stateBefore lines i) line.toList ac r),
          (scanLine (stateBefore lines i) line.toList).2) :=
  scanLine_rewriteLine hc hs (Buffer.change_of_classes_getElem? hline hclass) hr hsite

/-- Made internal, a property that states both its level and its setter's loses both words, and
reads as its tokens with both removed; also under an attribute whose argument list holds a string
literal, which the editor passes over. -/
theorem internal_setter_line_relexes :
    (rewriteLine "public private(set) var x"
        { change := .setterSubstitute .private "public", eligible := true, current := .public }
        (.setLevel .internal) = "public private(set) var x" ∨
      scanLine (stateBefore ["public private(set) var x"] 0)
          (rewriteLine "public private(set) var x"
            { change := .setterSubstitute .private "public", eligible := true, current := .public }
            (.setLevel .internal)).toList =
        (demoteOpen (Classification.editTokens (stateBefore ["public private(set) var x"] 0)
            "public private(set) var x".toList
            { change := .setterSubstitute .private "public", eligible := true, current := .public }
            (.setLevel .internal) { target := .internal, replacement := "" }),
          (scanLine (stateBefore ["public private(set) var x"] 0)
            "public private(set) var x".toList).2)) ∧
    (rewriteLine "@available(*, message: \"x\") public private(set) var x"
        { change := .setterSubstitute .private "public", eligible := true, current := .public }
        (.setLevel .internal) = "@available(*, message: \"x\") public private(set) var x" ∨
      scanLine (stateBefore ["@available(*, message: \"x\") public private(set) var x"] 0)
          (rewriteLine "@available(*, message: \"x\") public private(set) var x"
            { change := .setterSubstitute .private "public", eligible := true, current := .public }
            (.setLevel .internal)).toList =
        (demoteOpen (Classification.editTokens
            (stateBefore ["@available(*, message: \"x\") public private(set) var x"] 0)
            "@available(*, message: \"x\") public private(set) var x".toList
            { change := .setterSubstitute .private "public", eligible := true, current := .public }
            (.setLevel .internal) { target := .internal, replacement := "" }),
          (scanLine (stateBefore ["@available(*, message: \"x\") public private(set) var x"] 0)
            "@available(*, message: \"x\") public private(set) var x".toList).2)) := by
  -- the text before the attribute line's modifiers is plain code: its one literal closes
  have hattr : PlainCode "@available(*, message: \"x\") ".toList :=
    ⟨by rw [show stripLiterals "@available(*, message: \"x\") ".toList =
        "@available(*, message: ) ".toList by cbv]; decide, by decide, by decide⟩
  have hattr' : PlainCode "@available(*, message: \"x\") public ".toList :=
    hattr.append (Plain.plainCode (by decide)) (.inl rfl)
  refine ⟨rewriteLine_relexes_as_edited_tokens (i := 0) rfl (by cbv) rfl rfl rfl
    ⟨⟨by cbv, [], " private(set) var x".toList, by cbv, Plain.plainCode (by decide), rfl, rfl⟩,
      fun _ => ⟨[], "private(set) var x".toList, by cbv⟩,
      fun sp hsp => by
        cases hsp
        exact ⟨by cbv, "public ".toList, " var x".toList, by cbv, Plain.plainCode (by decide), rfl,
          rfl⟩⟩,
    rewriteLine_relexes_as_edited_tokens (i := 0) rfl (by cbv) rfl rfl rfl
    ⟨⟨by cbv, "@available(*, message: \"x\") ".toList, " private(set) var x".toList, by cbv, hattr,
        rfl, rfl⟩,
      fun _ => ⟨"@available(*, message: \"x\") ".toList, "private(set) var x".toList, by cbv⟩,
      fun sp hsp => by
        cases hsp
        exact ⟨by cbv, "@available(*, message: \"x\") public ".toList, " var x".toList, by cbv,
          hattr', rfl, rfl⟩⟩⟩

/-- Three lines whose rewrites are not read as their tokens edited. Written after the
declaration, a level rewritten to open is read by its neighbours as a name, not as the keyword the
edit put in place of the old level. A modifier written before the first occurrence of the first
word's text, which stands inside a comment, is not read at all. And on a line that starts inside a
comment, the editor replaces the first `private` of the text, which is still comment, so the line
reads as before. -/
theorem rewritten_line_read_otherwise :
    ((Buffer.ofLines ["func f() private"]).classes =
        [{ change := .substitute "private", eligible := true, current := .private }] ∧
      rewriteLine "func f() private"
          { change := .substitute "private", eligible := true, current := .private }
          (.setLevel .open) = "func f() open" ∧
      (scanLine .initial "func f() private".toList).1 =
        [.keyword .func, .identifier "f", .keyword .private] ∧
      (scanLine .initial "func f() open".toList).1 =
        [.keyword .func, .identifier "f", .identifier "open"]) ∧
    ((Buffer.ofLines ["/* public func */ func f()"]).classes =
        [{ change := .insertBefore "func", eligible := true, current := .internal }] ∧
      rewriteLine "/* public func */ func f()"
          { change := .insertBefore "func", eligible := true, current := .internal }
          (.setLevel .public) = "/* public public func */ func f()" ∧
      (scanLine .initial "/* public func */ func f()".toList).1 = [.keyword .func, .identifier "f"] ∧
      (scanLine .initial "/* public public func */ func f()".toList).1 =
        [.keyword .func, .identifier "f"]) ∧
    ((Buffer.ofLines ["/*", "private */ private func f()"]).classes[1]? =
        some { change := .substitute "private", eligible := true, current := .private } ∧
      rewriteLine "private */ private func f()"
          { change := .substitute "private", eligible := true, current := .private }
          (.setLevel .public) = "public */ private func f()" ∧
      (scanLine (stateBefore ["/*", "private */ private func f()"] 1)
          "private */ private func f()".toList).1 =
        [.keyword .private, .keyword .func, .identifier "f"] ∧
      (scanLine (stateBefore ["/*", "private */ private func f()"] 1)
          "public */ private func f()".toList).1 =
        [.keyword .private, .keyword .func, .identifier "f"]) :=
  ⟨⟨by cbv, by cbv, by cbv, by cbv⟩, ⟨by cbv, by cbv, by cbv, by cbv⟩,
    ⟨by cbv, by cbv, by cbv, by cbv⟩⟩

end SwiftAccess
