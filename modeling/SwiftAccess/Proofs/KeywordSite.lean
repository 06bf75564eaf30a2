import SwiftAccess.Proofs.SiteScan

/-!
# A keyword at a whole-word site

`Lexer.KeywordSite st line k b a` says that the keyword `k` stands on `line` as a whole word
between `b` and `a`, with plain code before it (`Lexer.PlainCode`: its string literals close, and
no comment or multiline string starts in it), and that the lexer reads it outside parentheses.
At such a site the lexer's tokens are those of the words of `b` with its literals cut out
(`Lexer.leading`), then `k`, then those of `a`; so writing another keyword there replaces one token (`Lexer.KeywordSite.rawScan_set`),
removing the word removes one (`Lexer.KeywordSite.rawScan_erase`), and a keyword written as a new
whole word is one new token (`Lexer.rawScan_insertBefore`, `Lexer.rawScan_insertAfter`).

The editor finds its anchors by their text. Where it finds a whole word that no other token of
the line spells, the word is the token the classifier chose (`Lexer.keywordSite_of_wholeWord`): the
site is a keyword site, and the number of tokens before it is the token's position.
-/

namespace SwiftAccess

namespace Lexer

open Text Edit

/-- The tokens of the words of `b`, its literals cut out, and the state they leave, read in the
state that the rest `a` of a line sets for reading its words. -/
def leading (st : State) (b a : List Char) : List Token × State :=
  scanWords (codeState st a) (words (stripLiterals b))

/-- The keyword `k` stands on `line` as a whole word between `b` and `a`: plain code before it,
white space or the line's edge on both sides, and no parenthesis open where it is read. -/
structure KeywordSite (st : State) (line : List Char) (k : Keyword) (b a : List Char) : Prop where
  split : line = b ++ k.spelling.toList ++ a
  plain : PlainCode b
  left : b.getLast?.all isBlank = true
  right : a.head?.all isBlank = true
  depth : (leading st b a).2.parenDepth = 0

theorem isBlank_space : isBlank ' ' = true := by decide

theorem plain_space : Plain [' '] := fun c hc => by
  rw [List.mem_singleton.1 hc]; exact ⟨by decide, by decide⟩

theorem State.record_keyword_text (st : State) (k : Keyword) :
    (st.record (.keyword k)).1.text = k.spelling := by
  rw [State.record_keyword_fst]
  split <;> rfl

theorem State.record_keyword_of_depth {st : State} (h : st.parenDepth = 0) (k : Keyword) :
    (st.record (.keyword k)).1 = .keyword k := by
  rw [State.record_keyword_fst, if_neg (by omega)]

/-- The raw tokens before the first setter modifier of a line are no setter modifiers. -/
theorem isSetterModifier_of_lt_findIdx {st : State} {line : List Char} {j : Nat} {t : Token}
    (hj : j < (scanLine st line).1.findIdx Token.isSetterModifier)
    (ht : (rawScan st line).1[j]? = some t) : t.isSetterModifier = false := by
  have hmap : (scanLine st line).1.map Token.isSetterModifier =
      (rawScan st line).1.map Token.isSetterModifier := by
    rw [scanLine_eq]
    exact demoteOpen_map Token.isSetterModifier rfl _
  have hlt : j < (scanLine st line).1.length :=
    Nat.lt_of_lt_of_le hj List.findIdx_le_length
  have := List.not_of_lt_findIdx hj
  have hget : ((scanLine st line).1.map Token.isSetterModifier)[j]? = some false := by
    rw [List.getElem?_map, List.getElem?_eq_getElem hlt, Option.map_some, this]
  rw [hmap, List.getElem?_map, ht] at hget
  exact Option.some.inj hget

theorem solid_spelling (k : Keyword) : Solid k.spelling.toList :=
  ⟨(Keyword.spelling_word k).1, (Keyword.spelling_word k).2.1⟩

/-- A keyword site stays one, found by the editor, when the text after it changes to another that
starts with white space and sets the same state for reading the line. -/
theorem KeywordSite.of_suffix {st : State} {line : List Char} {k : Keyword} {b a : List Char}
    (h : KeywordSite st line k b a) (hloc : locate line k.spelling.toList = some (b, a))
    (a' : List Char) (ha' : a'.head?.all isBlank = true) (hstate : codeState st a' = codeState st a) :
    KeywordSite st (b ++ k.spelling.toList ++ a') k b a' ∧ leading st b a' = leading st b a ∧
      locate (b ++ k.spelling.toList ++ a') k.spelling.toList = some (b, a') := by
  have hl : leading st b a' = leading st b a := by simp only [leading, hstate]
  refine ⟨⟨rfl, h.plain, h.left, ha', hl ▸ h.depth⟩, hl, ?_⟩
  rw [h.split] at hloc
  exact locate_of_suffix (solid_spelling k) hloc h.left ha'

/-- A keyword site stays one, found by the editor, when the text before it changes to other plain
code that ends in white space, in which the editor finds no site, and after which the lexer is in
the same state. -/
theorem KeywordSite.of_prefix {st : State} {line : List Char} {k : Keyword} {b a : List Char}
    (h : KeywordSite st line k b a) (b' : List Char) (hp : PlainCode b')
    (hb' : b'.getLast?.all isBlank = true) (hnone : locate b' k.spelling.toList = none)
    (hstate : (leading st b' a).2 = (leading st b a).2) :
    KeywordSite st (b' ++ k.spelling.toList ++ a) k b' a ∧
      locate (b' ++ k.spelling.toList ++ a) k.spelling.toList = some (b', a) :=
  ⟨⟨rfl, hp, hb', h.right, hstate ▸ h.depth⟩, locate_of_prefix (solid_spelling k) hnone hb' h.right⟩

theorem State.record_keyword_isSetterModifier (st : State) {k : Keyword} (hk : k.isSetter = false) :
    (st.record (.keyword k)).1.isSetterModifier = false := by
  rw [State.record_keyword_fst]
  split <;> simp [Token.isSetterModifier, Token.keyword?, hk]

/-- A text ending in white space does not end with a keyword word. -/
theorem ne_nil_of_getLast_blank {x n : List Char} (k : Keyword)
    (h : (x ++ k.spelling.toList ++ n).getLast?.all isBlank = true) : n ≠ [] := by
  rintro rfl
  obtain ⟨hne, hnb, -⟩ := Keyword.spelling_word k
  obtain ⟨c, hc⟩ := Option.isSome_iff_exists.1 (List.getLast?_isSome.2 hne)
  rw [List.append_nil, List.getLast?_append_of_ne_nil _ hne, hc] at h
  simp [hnb c (List.mem_of_getLast? hc)] at h

section

variable {st : State} (hc : st.inComment = false) (hs : st.inString = false)
include hc hs

/-- At a keyword site the line's tokens are those before it, the keyword, and those after it. -/
theorem KeywordSite.rawScan_eq {line : List Char} {k : Keyword} {b a : List Char}
    (h : KeywordSite st line k b a) :
    rawScan st line =
      ((leading st b a).1 ++ .keyword k :: (scanWords (leading st b a).2 (codeWords st a)).1,
       (scanWords (leading st b a).2 (codeWords st a)).2) := by
  have hd : (scanWords (codeState st a) (words (stripLiterals b))).2.parenDepth = 0 := h.depth
  rw [h.split, rawScan_keyword hc hs h.plain h.left h.right k, State.record_keyword_of_depth hd]
  rfl

/-- Writing another keyword at a keyword site replaces one token, and the site stays one. -/
theorem KeywordSite.rawScan_set {line : List Char} {k : Keyword} {b a : List Char}
    (h : KeywordSite st line k b a) (k' : Keyword) :
    rawScan st (b ++ k'.spelling.toList ++ a) =
        ((rawScan st line).1.set (leading st b a).1.length (.keyword k'), (rawScan st line).2) ∧
      KeywordSite st (b ++ k'.spelling.toList ++ a) k' b a := by
  have h' : KeywordSite st (b ++ k'.spelling.toList ++ a) k' b a :=
    ⟨rfl, h.plain, h.left, h.right, h.depth⟩
  refine ⟨?_, h'⟩
  rw [h'.rawScan_eq hc hs, h.rawScan_eq hc hs]
  simp

/-- Removing the word of a keyword site, with or without the space after it, removes its token. -/
theorem KeywordSite.rawScan_erase {line : List Char} {k : Keyword} {b a a' : List Char}
    (h : KeywordSite st line k b a) (ha' : a = a' ∨ a = ' ' :: a') :
    rawScan st (b ++ a') =
      ((rawScan st line).1.eraseIdx (leading st b a).1.length, (rawScan st line).2) := by
  have hrest : codeWords st a' = codeWords st a ∧ codeState st a' = codeState st a := by
    rcases ha' with rfl | rfl
    · exact ⟨rfl, rfl⟩
    · have := codeWords_blank_cons hc hs isBlank_space a'
      exact ⟨this.1.symm, this.2.symm⟩
  rw [rawScan_append_code hc hs h.plain (.inl h.left), h.rawScan_eq hc hs, hrest.1, hrest.2,
    List.eraseIdx_append_of_length_le (Nat.le_refl _)]
  simp [leading]

/-- A keyword written as a new word before the rest `z` of a line, after a start of plain code that
ends in white space, is one new token, read where the start leaves the lexer. -/
theorem rawScan_insertBefore {x : List Char} (hx : PlainCode x) (hxe : x.getLast?.all isBlank = true)
    (z : List Char) (k : Keyword) (hd : (leading st x z).2.parenDepth = 0) :
    rawScan st (x ++ k.spelling.toList ++ ' ' :: z) =
      ((rawScan st (x ++ z)).1.insertIdx (leading st x z).1.length (.keyword k),
       (rawScan st (x ++ z)).2) := by
  obtain ⟨hw, hstate⟩ := codeWords_blank_cons hc hs isBlank_space z
  rw [rawScan_keyword hc hs hx hxe (by simp [isBlank_space]) k, rawScan_append_code hc hs hx (.inl hxe),
    hw, hstate]
  rw [show scanWords (codeState st z) (words (stripLiterals x)) = leading st x z from rfl,
    State.record_keyword_of_depth hd, insertIdx_prefix_length]

/-- A keyword written as a new word after a start of a line that is plain code, before a rest that
starts with white space, is one new token, read where the start leaves the lexer. -/
theorem rawScan_insertAfter {x z : List Char} (hx : PlainCode x) (hz : z.head?.all isBlank = true)
    (k : Keyword) (hd : (leading st x z).2.parenDepth = 0) :
    rawScan st (x ++ ' ' :: k.spelling.toList ++ z) =
      ((rawScan st (x ++ z)).1.insertIdx (leading st x z).1.length (.keyword k),
       (rawScan st (x ++ z)).2) := by
  have hx' : PlainCode (x ++ [' ']) := hx.append plain_space.plainCode (.inr (by decide))
  have hw : words (stripLiterals (x ++ [' '])) = words (stripLiterals x) := by
    have hblank : words [' '] = [] := words_eq_nil (by simp [isBlank_space])
    rw [stripLiterals_append_singleton (by decide), words_append _ _ (.inr (by decide)), hblank,
      List.append_nil]
  have hsplit : x ++ ' ' :: k.spelling.toList ++ z = x ++ [' '] ++ k.spelling.toList ++ z := by simp
  rw [hsplit, rawScan_keyword hc hs hx' (by simp [isBlank_space]) hz k,
    rawScan_append_code hc hs hx (.inr hz), hw]
  rw [show scanWords (codeState st z) (words (stripLiterals x)) = leading st x z from rfl,
    State.record_keyword_of_depth hd, insertIdx_prefix_length]

/-! ## The classifier's token is the editor's word -/

/-- Where the editor finds a whole word after plain code that no other token of the line spells,
and the keyword token `k` at position `i` spells it, the word is that token: a keyword site with `i`
tokens before it. -/
theorem keywordSite_of_wholeWord {line : List Char} {k : Keyword} {i : Nat}
    (hw : WholeWord (scanLine st line).1 line k.spelling)
    (hi : (scanLine st line).1[i]? = some (.keyword k)) :
    ∃ b a, locate line k.spelling.toList = some (b, a) ∧ KeywordSite st line k b a ∧
      (leading st b a).1.length = i := by
  obtain ⟨hcount, b, a, hloc, hplain, hleft, hright⟩ := hw
  have hsplit := (locate_eq_some hloc).1
  have hraw := rawScan_keyword hc hs hplain hleft hright k
  rw [← hsplit] at hraw
  have hsite : (rawScan st line).1[(leading st b a).1.length]? =
      some ((leading st b a).2.record (.keyword k)).1 := by
    rw [hraw]
    simp [leading]
  -- the token at the site spells the anchor, as the chosen token does; only one token does
  have htext : (scanLine st line).1.map Token.text = (rawScan st line).1.map Token.text := by
    rw [scanLine_eq]
    exact demoteOpen_map Token.text rfl _
  have hsite_text : ((scanLine st line).1[(leading st b a).1.length]?).map Token.text =
      some k.spelling := by
    rw [← List.getElem?_map, htext, List.getElem?_map, hsite]
    simp [State.record_keyword_text]
  obtain ⟨y, hy, hyt⟩ := Option.map_eq_some_iff.1 hsite_text
  have hidx : i = (leading st b a).1.length :=
    eq_of_countP_eq_one hcount hi hy (by simp [Token.text]) (by simp [hyt])
  subst hidx
  -- and the chosen token is a keyword, so it was read outside parentheses
  have hkw : (rawScan st line).1[(leading st b a).1.length]? = some (.keyword k) := by
    rw [scanLine_eq] at hi
    exact demoteOpen.go_getElem?_keyword none _ _ hi
  rw [hsite] at hkw
  exact ⟨b, a, hloc,
    ⟨hsplit, hplain, hleft, hright, State.depth_of_record_keyword (Option.some.inj hkw)⟩, rfl⟩

/-! ## Setter modifiers -/

/-- At a setter modifier's keyword site where the editor finds it, with no setter modifier read
before it, the setter edit of the text is the setter edit of the tokens. -/
theorem KeywordSite.rawScan_applySetter {line : List Char} {s0 : Keyword} {b a : List Char}
    (h : KeywordSite st line s0 b a) (hloc : locate line s0.spelling.toList = some (b, a))
    (hnone : ∀ t ∈ (leading st b a).1, t.isSetterModifier = false) (hs0 : s0.isSetter = true)
    {level : Access} (hlevel : level.setterKeyword? = some s0.spelling) (e : SetterEdit) :
    rawScan st (applySetter line level e) =
      (e.onTokens (rawScan st line).1, (rawScan st line).2) := by
  have hidx : (rawScan st line).1.findIdx Token.isSetterModifier = (leading st b a).1.length := by
    rw [h.rawScan_eq hc hs]
    exact findIdx_prefix_length hnone (by simp [Token.isSetterModifier, Token.keyword?, hs0])
  simp only [applySetter, hlevel, hloc]
  cases e with
  | keep => rfl
  | remove =>
    simp only [SetterEdit.onTokens, hidx]
    split
    · exact h.rawScan_erase hc hs (.inr rfl)
    · exact h.rawScan_erase hc hs (.inl rfl)
  | replace target =>
    simp only [SetterEdit.onTokens, hidx, Access.setterKeyword?_eq]
    cases target.setterModifier? with
    | none => rfl
    | some k'' => exact (h.rawScan_set hc hs k'').1

/-- The words of plain code meeting another text at white space are read first. -/
theorem leading_append {x y a : List Char} (hx : PlainCode x) (hxy : Apart x y) :
    leading st (x ++ y) a =
      ((leading st x a).1 ++ (scanWords (leading st x a).2 (words (stripLiterals y))).1,
       (scanWords (leading st x a).2 (words (stripLiterals y))).2) := by
  have hslash : ∀ w ∈ words (stripLiterals x), '/' ∉ w := fun w hw' =>
    not_mem_of_mem_words hw' fun h => (hx.stripped _ h).2 rfl
  rw [leading, hx.stripLiterals_append, words_append _ _ (apart_stripLiterals hxy)]
  exact (scanWords_append _ (codeState_inComment hc hs a) _ _ hslash).1

/-- A keyword word after plain code is one token, and the words after it are read in the state
before it. -/
theorem leading_keyword {x y a : List Char} (hx : PlainCode x) (hxe : x.getLast?.all isBlank = true)
    (hy : y.head?.all isBlank = true) (k : Keyword) :
    leading st (x ++ k.spelling.toList ++ y) a =
      ((leading st x a).1 ++ ((leading st x a).2.record (.keyword k)).1 ::
        (scanWords (leading st x a).2 (words (stripLiterals y))).1,
       (scanWords (leading st x a).2 (words (stripLiterals y))).2) := by
  have hxk : PlainCode (x ++ k.spelling.toList) :=
    hx.append (Keyword.plainCode_spelling k) (.inl hxe)
  rw [leading_append hc hs hxk (.inr hy), leading_append hc hs hx (.inl hxe),
    (Keyword.spelling_word k).2.2.stripLiterals_eq, words_spelling, scanWords_keyword _ ?_ k]
  · simp [scanWords]
  · -- the words of `x` end outside a comment
    exact (scanWords_append _ (codeState_inComment hc hs a) (words (stripLiterals x)) []
      fun w hw' => not_mem_of_mem_words hw' fun h => (hx.stripped _ h).2 rfl).2

/-- A keyword site stays one, found by the editor, when a keyword word before it is replaced by a
word shorter than the site's that is no setter modifier: the words before the site leave the lexer
in the same state, and if no setter modifier was read among them, none is. -/
theorem KeywordSite.of_prefix_set {line : List Char} {s0 k k' : Keyword} {b1 n a : List Char}
    (h : KeywordSite st line s0 (b1 ++ k.spelling.toList ++ n) a)
    (hloc : locate line s0.spelling.toList = some (b1 ++ k.spelling.toList ++ n, a))
    (hb1p : PlainCode b1) (hb1 : b1.getLast?.all isBlank = true) (hn : n.head?.all isBlank = true)
    (hlen : k'.spelling.length < s0.spelling.length) (hk' : k'.isSetter = false) :
    KeywordSite st (b1 ++ k'.spelling.toList ++ n ++ s0.spelling.toList ++ a) s0
        (b1 ++ k'.spelling.toList ++ n) a ∧
      locate (b1 ++ k'.spelling.toList ++ n ++ s0.spelling.toList ++ a) s0.spelling.toList =
        some (b1 ++ k'.spelling.toList ++ n, a) ∧
      ((∀ t ∈ (leading st (b1 ++ k.spelling.toList ++ n) a).1, t.isSetterModifier = false) →
        ∀ t ∈ (leading st (b1 ++ k'.spelling.toList ++ n) a).1, t.isSetterModifier = false) := by
  have hnp : PlainCode n := h.plain.of_append (hb1p.append (Keyword.plainCode_spelling k) (.inl hb1))
  have hnne : n ≠ [] := ne_nil_of_getLast_blank k h.left
  have hlast : (b1 ++ k'.spelling.toList ++ n).getLast?.all isBlank = true := by
    have := h.left
    rw [List.getLast?_append_of_ne_nil _ hnne] at this ⊢
    exact this
  have hold := leading_keyword hc hs hb1p hb1 hn k (a := a)
  have hnew := leading_keyword hc hs hb1p hb1 hn k' (a := a)
  -- the editor found nothing before the site, so it finds nothing in the new text before it
  have hnone : locate (b1 ++ k'.spelling.toList ++ n) s0.spelling.toList = none := by
    have hpre := locate_prefix_eq_none (solid_spelling s0) (h.split ▸ hloc) h.left
    rw [List.append_assoc] at hpre ⊢
    obtain ⟨hb1n, hkn⟩ := locate_eq_none_of_append (solid_spelling s0) (.inl hb1) hpre
    have hnn := (locate_eq_none_of_append (solid_spelling s0) (.inr hn) hkn).2
    have hk'n : locate k'.spelling.toList s0.spelling.toList = none :=
      locate_of_length_lt (by simp only [String.length_toList]; exact hlen)
    exact locate_append_eq_none (solid_spelling s0) (.inl hb1) hb1n
      (locate_append_eq_none (solid_spelling s0) (.inr hn) hk'n hnn)
  obtain ⟨hsite, hloc'⟩ := h.of_prefix _
    ((hb1p.append (Keyword.plainCode_spelling k') (.inl hb1)).append hnp (.inr hn))
    hlast hnone (by rw [hnew, hold])
  refine ⟨hsite, hloc', fun hprev t ht => ?_⟩
  rw [hnew] at ht
  rw [hold] at hprev
  simp only [List.mem_append, List.mem_cons] at ht hprev
  rcases ht with ht | rfl | ht
  · exact hprev t (.inl ht)
  · exact State.record_keyword_isSetterModifier _ hk'
  · exact hprev t (.inr (.inr ht))

/-- A keyword site stays one, found by the editor, when a keyword word before it is removed with
the space after it: the words before the site leave the lexer in the same state, and if no setter
modifier was read among them, none is. -/
theorem KeywordSite.of_prefix_erase {line : List Char} {s0 k : Keyword} {b1 n a : List Char}
    (h : KeywordSite st line s0 (b1 ++ k.spelling.toList ++ ' ' :: n) a)
    (hloc : locate line s0.spelling.toList = some (b1 ++ k.spelling.toList ++ ' ' :: n, a))
    (hb1p : PlainCode b1) (hb1 : b1.getLast?.all isBlank = true) :
    KeywordSite st (b1 ++ n ++ s0.spelling.toList ++ a) s0 (b1 ++ n) a ∧
      locate (b1 ++ n ++ s0.spelling.toList ++ a) s0.spelling.toList = some (b1 ++ n, a) ∧
      ((∀ t ∈ (leading st (b1 ++ k.spelling.toList ++ ' ' :: n) a).1, t.isSetterModifier = false) →
        ∀ t ∈ (leading st (b1 ++ n) a).1, t.isSetterModifier = false) := by
  have hnp : PlainCode n :=
    ((h.plain.of_append (hb1p.append (Keyword.plainCode_spelling k) (.inl hb1)) :
      PlainCode ([' '] ++ n))).of_append plain_space.plainCode
  have hlast : (b1 ++ n).getLast?.all isBlank = true := by
    by_cases hnne : n = []
    · simpa [hnne] using hb1
    · rw [List.getLast?_append_of_ne_nil _ hnne]
      have := h.left
      rw [List.getLast?_append_of_ne_nil _ (List.cons_ne_nil _ _), List.getLast?_cons,
        List.getLast?_eq_some_getLast hnne] at this
      simpa [List.getLast?_eq_some_getLast hnne] using this
  have hwords : words (stripLiterals (' ' :: n)) = words (stripLiterals n) := by
    rw [stripLiterals_cons_of_ne (by decide), words_cons_blank isBlank_space]
  have hold := leading_keyword hc hs hb1p hb1 (y := ' ' :: n) (by simp [isBlank_space]) k (a := a)
  have hnew := leading_append hc hs hb1p (y := n) (.inl hb1) (a := a)
  rw [hwords] at hold
  have hnone : locate (b1 ++ n) s0.spelling.toList = none := by
    have hpre := locate_prefix_eq_none (solid_spelling s0) (h.split ▸ hloc) h.left
    rw [List.append_assoc] at hpre
    obtain ⟨hb1n, hkn⟩ := locate_eq_none_of_append (solid_spelling s0) (.inl hb1) hpre
    have hsn := (locate_eq_none_of_append (solid_spelling s0) (.inr (by simp [isBlank_space])) hkn).2
    have hnn := (locate_eq_none_of_append (solid_spelling s0) (x := [' ']) (.inl (by simp [isBlank_space]))
      hsn).2
    exact locate_append_eq_none (solid_spelling s0) (.inl hb1) hb1n hnn
  obtain ⟨hsite, hloc'⟩ := h.of_prefix _ (hb1p.append hnp (.inl hb1)) hlast hnone
    (by rw [hnew, hold])
  refine ⟨hsite, hloc', fun hprev t ht => ?_⟩
  rw [hnew] at ht
  rw [hold] at hprev
  simp only [List.mem_append, List.mem_cons] at ht hprev
  rcases ht with ht | ht
  · exact hprev t (.inl ht)
  · exact hprev t (.inr (.inr ht))

end

end Lexer

end SwiftAccess
