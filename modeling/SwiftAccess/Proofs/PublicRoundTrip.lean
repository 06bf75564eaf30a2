import SwiftAccess.Proofs.ScopeShape

/-!
# Writing `public` and removing it again

On a buffer whose selected lines state no level, writing `public` on every selected line that may
carry a modifier and then removing the modifier gives the buffer back; so does making the API and
then removing it (`makeAPI`, then `removeAPI`). The main statement is
`rewritten_public_then_removed`. It holds where each line that gets the modifier starts in code,
has its anchor as its first word, and, where the modifier follows an attribute or a keyword such
as `static`, gets it before a space, after no other `public` the editor could find, and between
two tokens that neither the scope nor the contextual `open` rule reads together
(`LineChange.PublicRoom`).

The proof follows the lines. Each rewritten line leaves the lexer in the state the line left it
(`scanLine_rewriteLine`), so every line is lexed from the state it was lexed from before. A
rewritten line reads as the line with one `public` keyword more (`scanLine_public`), which the
scope reads as it read the line, so every line keeps its eligibility. The second rewrite then finds
the written word first and removes it together with the space after it (`substitute_insertBefore`,
`substitute_insertAfter`).
-/

namespace SwiftAccess

open Lexer Text Edit

/-! ## The text -/

namespace Edit

/-- The editor finds no word in white space. -/
theorem locate_eq_none_of_blank {x anchor : List Char} (hs : Solid anchor)
    (hx : ∀ c ∈ x, isBlank c = true) : locate x anchor = none := by
  cases h : locate x anchor with
  | none => rfl
  | some p =>
    obtain ⟨c, hc⟩ := List.exists_mem_of_ne_nil _ hs.1
    have hcx : c ∈ x := by
      rw [(locate_eq_some h).1]
      simp [hc]
    have h1 := hx c hcx
    rw [hs.2 c hc] at h1
    exact absurd h1 (by simp)

/-- A word written before the line's first word is the first the editor finds, and removing it
with the space after it gives the line back. -/
theorem substitute_insertBefore {line W : List Char} {A : String} (hW : Solid W)
    (hw : FirstWord line A) : substitute (applyChange line (.insertBefore A) W) W [] = line := by
  obtain ⟨lead, rest, hloc, hlead⟩ := hw
  have hne : W.isEmpty = false := List.isEmpty_eq_false_iff.2 hW.1
  have hfound : locate (lead ++ W ++ ' ' :: (A.toList ++ rest)) W =
      some (lead, ' ' :: (A.toList ++ rest)) :=
    locate_of_prefix hW (locate_eq_none_of_blank hW hlead) (getLast_blank_of_blank hlead)
      (by simp [isBlank_space])
  simp only [applyChange, hne, hloc, Bool.false_eq_true, if_false]
  rw [show lead ++ W ++ ' ' :: A.toList ++ rest = lead ++ W ++ ' ' :: (A.toList ++ rest) by simp,
    substitute_nil_space hfound, (locate_eq_some hloc).1, List.append_assoc]

/-- A word written after the first word and its argument list, before a space and after every
occurrence the editor could find, is the first it finds; removing it with the space after it gives
the line back. -/
theorem substitute_insertAfter {line W b x mid t : List Char} {A : String} (hW : Solid W)
    (hloc : locate line A.toList = some (b, x)) (hb : ∀ c ∈ b, isBlank c = true)
    (hip : insertionPoint A.toList x = some (mid, ' ' :: t))
    (hpub : locate (A.toList ++ mid) W = none) :
    substitute (b ++ A.toList ++ mid ++ ' ' :: W ++ ' ' :: t) W [] = line := by
  have hspace : locate [' '] W = none := locate_eq_none_of_blank hW (by simp [isBlank_space])
  have hbefore : locate (b ++ (A.toList ++ mid) ++ [' ']) W = none :=
    locate_append_eq_none hW (.inr (by simp [isBlank_space]))
      (locate_append_eq_none hW (.inl (getLast_blank_of_blank hb)) (locate_eq_none_of_blank hW hb)
        hpub) hspace
  have hfound := locate_of_prefix hW hbefore (by simp [isBlank_space]) (a := ' ' :: t)
    (by simp [isBlank_space])
  rw [show b ++ A.toList ++ mid ++ ' ' :: W ++ ' ' :: t =
      b ++ (A.toList ++ mid) ++ [' '] ++ W ++ ' ' :: t by simp,
    substitute_nil_space hfound, (locate_eq_some hloc).1, insertionPoint_eq_some hip]
  simp

end Edit

/-! ## The tokens -/

/-- Tokens that state no level: no plain and no setter modifier. -/
def Token.Bare (ts : List Token) : Prop :=
  ∀ t ∈ ts, t.isAccessModifier = false ∧ t.isSetterModifier = false

namespace LineChange

section

variable {ts : List Token}

theorem find?_eq_none_of_bare (h : Token.Bare ts) :
    (ts.filterMap Token.keyword?).find? Keyword.isAccess = Option.none ∧
      (ts.filterMap Token.keyword?).find? Keyword.isSetter = Option.none := by
  constructor <;>
  · rw [List.find?_eq_none]
    intro k hk
    obtain ⟨t, ht, htk⟩ := List.mem_filterMap.1 hk
    have := h t ht
    simp_all [Token.isAccessModifier, Token.isSetterModifier]

/-- A line that states no level takes a modifier before or after its first token, or none. -/
theorem ofTokens_of_bare (h : Token.Bare ts) :
    ofTokens ts = .none ∨ (∃ A, ofTokens ts = .insertBefore A) ∨
      ∃ A, ofTokens ts = .insertAfter A := by
  obtain ⟨ha, hs⟩ := find?_eq_none_of_bare h
  rcases ofTokens_cases ts with ⟨sk, hsk, -⟩ |
    ⟨-, ⟨k, hk, -⟩ | ⟨-, he | ⟨k, rest, -, he | he⟩ | ⟨a, rest, -, he⟩⟩⟩
  · rw [hs] at hsk
    cases hsk
  · rw [ha] at hk
    cases hk
  · exact .inl he
  · exact .inr (.inl ⟨_, he⟩)
  · exact .inr (.inr ⟨_, he⟩)
  · exact .inr (.inr ⟨_, he⟩)

theorem ofTokens_of_find? {k : Keyword}
    (hs : (ts.filterMap Token.keyword?).find? Keyword.isSetter = Option.none)
    (ha : (ts.filterMap Token.keyword?).find? Keyword.isAccess = some k) :
    ofTokens ts = .substitute k.spelling := by
  cases ts with
  | nil => simp at ha
  | cons first rest =>
    unfold ofTokens
    simp only [hs, ha]

end

end LineChange

section

variable {ts : List Token}

theorem insertIdx_eq_take_drop {α : Type} {l : List α} {w : Nat} (hw : w ≤ l.length) (u : α) :
    l.insertIdx w u = l.take w ++ u :: l.drop w := by
  have := insertIdx_prefix_length (l.take w) (l.drop w) u
  rwa [List.take_append_drop, List.length_take_of_le hw] at this

theorem filterMap_insertIdx_public (h : Token.Bare ts) {w : Nat} (hw : w ≤ ts.length) :
    ∃ xs ys, (ts.insertIdx w (.keyword .«public»)).filterMap Token.keyword? =
      xs ++ .«public» :: ys ∧ (∀ k ∈ xs, k.isAccess = false ∧ k.isSetter = false) ∧
      ∀ k ∈ ys, k.isSetter = false := by
  have hsplit := insertIdx_eq_take_drop hw (Token.keyword .«public»)
  have hk : ∀ t ∈ ts, ∀ k, t.keyword? = some k → k.isAccess = false ∧ k.isSetter = false := by
    intro t ht k htk
    have := h t ht
    simp_all [Token.isAccessModifier, Token.isSetterModifier]
  refine ⟨(ts.take w).filterMap Token.keyword?, (ts.drop w).filterMap Token.keyword?, ?_, ?_, ?_⟩
  · rw [hsplit, List.filterMap_append, List.filterMap_cons]
    rfl
  · intro k hk'
    obtain ⟨t, ht, htk⟩ := List.mem_filterMap.1 hk'
    exact hk t (List.mem_of_mem_take ht) k htk
  · intro k hk'
    obtain ⟨t, ht, htk⟩ := List.mem_filterMap.1 hk'
    exact (hk t (List.mem_of_mem_drop ht) k htk).2

/-- With `public` written among tokens that state no level, the line states `public`, and its
change is that modifier's substitution. -/
theorem ofTokens_insertIdx_public (h : Token.Bare ts) {w : Nat} (hw : w ≤ ts.length) :
    LineChange.ofTokens (ts.insertIdx w (.keyword .«public»)) = .substitute "public" ∧
      statedAccess? (ts.insertIdx w (.keyword .«public»)) = some .«public» := by
  obtain ⟨xs, ys, heq, hxs, hys⟩ := filterMap_insertIdx_public h hw
  have hxa : xs.find? Keyword.isAccess = Option.none :=
    List.find?_eq_none.2 fun k hk => by simp [(hxs k hk).1]
  have hxs' : xs.find? Keyword.isSetter = Option.none :=
    List.find?_eq_none.2 fun k hk => by simp [(hxs k hk).2]
  have hys' : ys.find? Keyword.isSetter = Option.none :=
    List.find?_eq_none.2 fun k hk => by simp [hys k hk]
  have hxsa : xs.findSome? Keyword.access? = Option.none := by
    rw [List.findSome?_eq_none_iff]
    intro k hk
    have := (hxs k hk).1
    simp only [Keyword.isAccess, Option.isSome_eq_false_iff, Option.isNone_iff_eq_none] at this
    exact this
  constructor
  · refine LineChange.ofTokens_of_find? (k := .«public») ?_ ?_
    · rw [heq, List.find?_append, hxs', List.find?_cons_of_neg (by decide), hys']
      rfl
    · rw [heq, List.find?_append, hxa, List.find?_cons_of_pos (by decide)]
      rfl
  · rw [statedAccess?, heq, List.findSome?_append, hxsa, List.findSome?_cons]
    rfl

end

/-- The contextual `open` rule reads a line with `public` in front as it reads the line. -/
theorem Lexer.demoteOpen_public_cons (ts : List Token) :
    demoteOpen (.keyword .«public» :: ts) = .keyword .«public» :: demoteOpen ts := by
  have hgo : ∀ (p p' : Option Token), namesMember p = namesMember p' → ∀ us,
      demoteOpen.go p us = demoteOpen.go p' us := by
    intro p p' hp us
    cases us with
    | nil => rfl
    | cons u us => simp only [demoteOpen.go, hp]
  unfold demoteOpen
  simp only [demoteOpen.go]
  rw [hgo (some (.keyword .«public»)) Option.none rfl ts]
  rfl

/-! ## A line that gets `public` -/

namespace LineChange

/-- The number of a line's tokens that a modifier written at the line's change follows. -/
def modifierIndex (st : Lexer.State) (line : List Char) : LineChange → Nat
  | .insertAfter a => postfixWidth st line a
  | _ => 0

/-- What writing `public` at a line's change and removing it again asks of the line. Before the
first word, that the editor finds the anchor there. After an attribute or a keyword such as
`static`, also that the modifier lands in plain code outside parentheses, before a space and after
no `public` the editor could find, between two tokens that the scope does not read together, and
that the contextual `open` rule reads the other tokens as before. -/
def PublicRoom (st : Lexer.State) (line : List Char) : LineChange → Prop
  | .insertBefore a => FirstWord line a
  | .insertAfter a =>
    FirstWord line a ∧ PostfixRoom st line a ∧
      (∀ b x mid tail, locate line a.toList = some (b, x) →
        insertionPoint a.toList x = some (mid, tail) →
          (∃ t, tail = ' ' :: t) ∧
            locate (a.toList ++ mid) Keyword.«public».spelling.toList = Option.none) ∧
      (∀ x y, ((scanLine st line).1.take (postfixWidth st line a)).getLast? = some x →
        ((scanLine st line).1.drop (postfixWidth st line a)).head? = some y →
          x.readTogether y = false) ∧
      demoteOpen ((rawScan st line).1.insertIdx (postfixWidth st line a) (.keyword .«public»)) =
        (scanLine st line).1.insertIdx (postfixWidth st line a) (.keyword .«public»)
  | _ => True

end LineChange

/-- A line that states no level, rewritten to `public`, is the line itself, or it reads as the
line with a `public` keyword at the place of its change and leaves the lexer as the line did. -/
theorem scanLine_public {st : State} (hc : st.inComment = false) (hs : st.inString = false)
    {line : String} {c : Classification} {ac : AccessChange}
    (hchange : c.change = LineChange.ofTokens (scanLine st line.toList).1)
    (hbare : Token.Bare (scanLine st line.toList).1)
    (hr : ac.resolve c.current = some ⟨.«public», "public"⟩)
    (hroom : c.change.PublicRoom st line.toList) :
    rewriteLine line c ac = line ∨
      scanLine st (rewriteLine line c ac).toList =
        ((scanLine st line.toList).1.insertIdx (c.change.modifierIndex st line.toList)
          (.keyword .«public»), (scanLine st line.toList).2) := by
  have hT : (scanLine st line.toList).1 = demoteOpen (rawScan st line.toList).1 :=
    congrArg Prod.fst (scanLine_eq st line.toList)
  rcases LineChange.ofTokens_of_bare hbare with hn | ⟨A, hn⟩ | ⟨A, hn⟩ <;> rw [← hchange] at hn
  · left
    simp [rewriteLine, hr, hn, applyChange, LineChange.setter?]
  · rw [hn] at hroom
    refine (scanLine_rewriteLine hc hs hchange hr (by rw [hn]; exact hroom)).imp id fun h => ?_
    rw [h]
    simp only [Classification.editTokens, hn, LineChange.onTokens, LineChange.setter?,
      LineChange.modifierIndex, Access.modifier?, demoteOpen_public_cons, List.insertIdx_zero, hT]
  · rw [hn] at hroom
    refine (scanLine_rewriteLine hc hs hchange hr (by rw [hn]; exact ⟨hroom.1, hroom.2.1⟩)).imp id
      fun h => ?_
    have hopen : demoteOpen ((rawScan st line.toList).1.insertIdx (postfixWidth st line.toList A)
        (.keyword .«public»)) = (scanLine st line.toList).1.insertIdx
          (postfixWidth st line.toList A) (.keyword .«public») := hroom.2.2.2.2
    rw [h]
    simp only [Classification.editTokens, hn, LineChange.onTokens, LineChange.setter?,
      LineChange.modifierIndex, Access.modifier?, hopen]

/-- A modifier written after the first word and its argument list follows some of the line's
tokens, never more than there are. -/
theorem postfixWidth_le_length {st : State} (hc : st.inComment = false)
    (hs : st.inString = false) {line : List Char} {A : String} (hw : FirstWord line A)
    (hroom : PostfixRoom st line A) (hne : (scanLine st line).1 ≠ []) :
    postfixWidth st line A ≤ (scanLine st line).1.length := by
  obtain ⟨lead, rest, hloc, hlead⟩ := hw
  have hlen : ∀ ts : List Token, (demoteOpen ts).length = ts.length := fun ts => by
    simpa using congrArg List.length (demoteOpen_map (fun _ => ()) rfl ts)
  simp only [postfixWidth, hloc]
  cases hip : insertionPoint A.toList rest with
  | none => exact List.length_pos_of_ne_nil hne
  | some p =>
    obtain ⟨mid, tail⟩ := p
    obtain ⟨hplain, htail, -⟩ := hroom lead rest mid tail hloc hip
    have hline : line = lead ++ (A.toList ++ mid) ++ tail := by
      rw [(locate_eq_some hloc).1, insertionPoint_eq_some hip]
      simp
    have hx : Plain (lead ++ (A.toList ++ mid)) := (Lexer.plain_of_blank hlead).append hplain
    have hwl : words (lead ++ (A.toList ++ mid)) = words (A.toList ++ mid) := by
      rw [words_append _ _ (.inl (getLast_blank_of_blank hlead)), words_eq_nil hlead,
        List.nil_append]
    have hraw := rawScan_append hc hs hx (.inr htail)
    rw [← hline, hwl] at hraw
    dsimp only
    rw [length_scanLine_plain hc hs hplain tail, scanLine_eq, hlen, hraw, List.length_append]
    exact Nat.le_add_right _ _

/-- Removing `public` from a line it was written on gives the line back. -/
theorem rewriteLine_removes_public {line : String} {c c' : Classification}
    {c₁ c₂ : AccessChange} {st : State} {r : Resolution}
    (hr₁ : c₁.resolve c.current = some ⟨.«public», "public"⟩)
    (hkind : c.change = .none ∨ (∃ A, c.change = .insertBefore A) ∨ ∃ A, c.change = .insertAfter A)
    (hroom : c.change.PublicRoom st line.toList) (hne : rewriteLine line c c₁ ≠ line)
    (hc' : c'.change = .substitute "public") (hr₂ : c₂.resolve c'.current = some r)
    (hrep : r.replacement = "") :
    rewriteLine (rewriteLine line c c₁) c' c₂ = line := by
  have hW : Solid "public".toList := solid_spelling .«public»
  have hset : c.change.setter? = Option.none := by
    rcases hkind with h | ⟨A, h⟩ | ⟨A, h⟩ <;> rw [h] <;> rfl
  have hfirst : rewriteLine line c c₁ =
      String.ofList (applyChange line.toList c.change "public".toList) := by
    simp only [rewriteLine, hr₁, hset]
  have houter : ∀ x : List Char,
      applyChange x (.substitute "public") [] = substitute x "public".toList [] := fun _ => rfl
  rw [hfirst] at hne ⊢
  simp only [rewriteLine, hr₂, hc', hrep, LineChange.setter?, String.toList_ofList,
    String.toList_empty, houter]
  rcases hkind with h | ⟨A, h⟩ | ⟨A, h⟩ <;> rw [h] at hroom hne ⊢
  · exact absurd (by simp [applyChange]) hne
  · rw [substitute_insertBefore hW hroom, String.ofList_toList]
  · obtain ⟨lead, rest, hloc, hlead⟩ := hroom.1
    cases hip : insertionPoint A.toList rest with
    | none =>
      exact absurd (by simp [applyChange, hloc, hip]) hne
    | some p =>
      obtain ⟨mid, tail⟩ := p
      obtain ⟨⟨t, rfl⟩, hpub⟩ := hroom.2.2.1 lead rest mid (tail) hloc hip
      have hedit : applyChange line.toList (.insertAfter A) "public".toList =
          lead ++ A.toList ++ mid ++ ' ' :: "public".toList ++ ' ' :: t := by
        simp [applyChange, hloc, hip]
      rw [hedit, substitute_insertAfter hW hloc hlead hip hpub, String.ofList_toList]

/-- Where `public` goes on a line that gets it, the line has at least that many tokens, and the
tokens on either side of it are not read together. -/
theorem scanLine_public_placed {st : State} (hc : st.inComment = false)
    (hs : st.inString = false) {line : String} {c : Classification} {ac : AccessChange}
    (hchange : c.change = LineChange.ofTokens (scanLine st line.toList).1)
    (hbare : Token.Bare (scanLine st line.toList).1)
    (hr : ac.resolve c.current = some ⟨.«public», "public"⟩)
    (hroom : c.change.PublicRoom st line.toList) (hne : rewriteLine line c ac ≠ line) :
    ∃ w ≤ (scanLine st line.toList).1.length,
      (∀ x y, ((scanLine st line.toList).1.take w).getLast? = some x →
        ((scanLine st line.toList).1.drop w).head? = some y → x.readTogether y = false) ∧
      scanLine st (rewriteLine line c ac).toList =
        ((scanLine st line.toList).1.insertIdx w (.keyword .«public»), (scanLine st line.toList).2) := by
  have hscan := (scanLine_public hc hs hchange hbare hr hroom).resolve_left hne
  rcases LineChange.ofTokens_of_bare hbare with hn | ⟨A, hn⟩ | ⟨A, hn⟩ <;> rw [← hchange] at hn
  · exact absurd (by simp [rewriteLine, hr, hn, applyChange, LineChange.setter?]) hne
  · rw [hn] at hscan
    exact ⟨0, Nat.zero_le _, fun x y hx => by simp at hx, hscan⟩
  · rw [hn] at hroom hscan
    -- a line with no tokens takes no modifier at all
    have hT : (scanLine st line.toList).1 ≠ [] := fun h => by
      rw [h, hn] at hchange
      simp [LineChange.ofTokens] at hchange
    exact ⟨_, postfixWidth_le_length hc hs hroom.1 hroom.2.1 hT, hroom.2.2.2.1, hscan⟩

/-! ## The scope -/

/-- A `public` keyword between two tokens that the scope does not read together leaves the line
read as before. -/
theorem readAlike_insertIdx_public {T : List Token} {w : Nat} (hw : w ≤ T.length)
    (hsplit : ∀ x y, (T.take w).getLast? = some x → (T.drop w).head? = some y →
      x.readTogether y = false) :
    Scope.ReadAlike T (T.insertIdx w (.keyword .«public»)) := by
  have h := Scope.ReadAlike.insert (show (Token.keyword .«public»).inert = true from rfl)
    (T.take w) (T.drop w) hsplit
  rw [List.take_append_drop] at h
  rw [insertIdx_eq_take_drop hw]
  exact h.symm

/-- An eligible line stays eligible with `public` written on it, in any similar scope. -/
theorem eligible_insertIdx_public {s s' : Scope} (h : s.Similar s') {T : List Token} {w : Nat}
    (hw : w ≤ T.length) (he : (classify s T).1.eligible = true) :
    (classify s' (T.insertIdx w (.keyword .«public»))).1.eligible = true := by
  have hstart : (T.head?.map Token.startsDeclaration).getD true = true := by
    simp only [classify, Bool.and_eq_true] at he
    exact he.1.1.2
  refine (eligible_eq_of_similar h ?_ ?_).symm.trans he
  · rw [hstart]
    cases w with
    | zero => rfl
    | succ w =>
      obtain ⟨t, T, rfl⟩ :=
        List.exists_cons_of_ne_nil (List.ne_nil_of_length_pos (show 0 < T.length by omega))
      simpa [List.insertIdx_succ_cons] using hstart
  · rw [insertIdx_eq_take_drop hw, isConformingExtension_insert rfl, List.take_append_drop]

/-- A change that writes no text leaves a line alone when the line has no modifier to remove. -/
theorem rewriteLine_of_empty {line : String} {c : Classification} {ac : AccessChange}
    (hkind : c.change = .none ∨ (∃ A, c.change = .insertBefore A) ∨ ∃ A, c.change = .insertAfter A)
    (hr : ∀ r, ac.resolve c.current = some r → r.replacement = "") :
    rewriteLine line c ac = line := by
  cases h : ac.resolve c.current with
  | none => simp [rewriteLine, h]
  | some r =>
    have hset : c.change.setter? = Option.none := by
      rcases hkind with h | ⟨A, h⟩ | ⟨A, h⟩ <;> rw [h] <;> rfl
    have hedit : applyChange line.toList c.change r.replacement.toList = line.toList := by
      rw [hr r h]
      rcases hkind with h | ⟨A, h⟩ | ⟨A, h⟩ <;> rw [h] <;> simp [applyChange]
    simp [rewriteLine, h, hset, hedit]

/-! ## The two changes -/

section

variable {c₁ c₂ : AccessChange}
  (hpair : (c₁ = .setLevel .«public» ∧ c₂ = .setLevel .implicit) ∨
    (c₁ = .makeAPI ∧ c₂ = .removeAPI))
include hpair

/-- The first change writes `public` or leaves the line alone. -/
theorem resolve_writes_public (a : Access) :
    c₁.resolve a = Option.none ∨ c₁.resolve a = some ⟨.«public», "public"⟩ := by
  rcases hpair with ⟨rfl, -⟩ | ⟨rfl, -⟩
  · exact .inr rfl
  · cases a <;> simp [AccessChange.resolve, AccessChange.step, Access.replacement, Access.keyword]

/-- The second change writes no modifier. -/
theorem resolve_writes_nothing {a : Access} {r : Resolution} (h : c₂.resolve a = some r) :
    r.replacement = "" := by
  rcases hpair with ⟨-, rfl⟩ | ⟨-, rfl⟩
  · rw [AccessChange.resolve_setLevel, Option.some.injEq] at h
    rw [← h]
    rfl
  · cases a <;> simp [AccessChange.resolve, AccessChange.step] at h
    rw [← h]
    rfl

/-- The second change applies to a line at `public`. -/
theorem resolve_public_isSome : ∃ r, c₂.resolve .«public» = some r := by
  rcases hpair with ⟨-, rfl⟩ | ⟨-, rfl⟩ <;> exact ⟨_, rfl⟩

/-! ## One line, twice -/

/-- A line that the first change left alone is left alone by the second, in a similar scope,
when it was not rewritten at all or states no level. -/
theorem round_trip_kept {st : State} {s s' : Scope} (hsim : s.Similar s') (line : String)
    (p : Prop) [Decidable p]
    (hbare : p ∧ (classify s (scanLine st line.toList).1).1.eligible = true →
      Token.Bare (scanLine st line.toList).1) :
    (if p ∧ (classify s' (scanLine st line.toList).1).1.eligible = true then
      rewriteLine line (classify s' (scanLine st line.toList).1).1 c₂ else line) = line := by
  have he : (classify s (scanLine st line.toList).1).1.eligible =
      (classify s' (scanLine st line.toList).1).1.eligible := eligible_eq_of_similar hsim rfl rfl
  split_ifs with hp
  · exact rewriteLine_of_empty (LineChange.ofTokens_of_bare (hbare ⟨hp.1, he.trans hp.2⟩))
      fun _ hr => resolve_writes_nothing hpair hr
  · rfl

/-- One line through both changes, lexed from `st`, read in scope `s` and selected when `p`
holds. After the first change it leaves the lexer as it did and the scope reads it as before; the
second change then gives the line back in any scope similar to `s`. -/
theorem round_trip_line {st : State} {s : Scope} {line : String} (p : Prop) [Decidable p]
    (hline : p → (classify s (scanLine st line.toList).1).1.eligible = true →
      Token.Bare (scanLine st line.toList).1 ∧
        ((c₁.resolve (classify s (scanLine st line.toList).1).1.current).isSome = true →
          st.inComment = false ∧ st.inString = false ∧
            (classify s (scanLine st line.toList).1).1.change.PublicRoom st line.toList)) :
    let c := (classify s (scanLine st line.toList).1).1
    let line₁ := if p ∧ c.eligible = true then rewriteLine line c c₁ else line
    (scanLine st line₁.toList).2 = (scanLine st line.toList).2 ∧
      Scope.ReadAlike (scanLine st line.toList).1 (scanLine st line₁.toList).1 ∧
      ∀ s', s.Similar s' →
        (if p ∧ (classify s' (scanLine st line₁.toList).1).1.eligible = true then
          rewriteLine line₁ (classify s' (scanLine st line₁.toList).1).1 c₂ else line₁) = line := by
  intro c line₁
  by_cases hsel : p ∧ c.eligible = true
  · obtain ⟨hbare, hroom⟩ := hline hsel.1 hsel.2
    have hl₁ : line₁ = rewriteLine line c c₁ := if_pos hsel
    by_cases hne : rewriteLine line c c₁ = line
    · -- the first change found no place for the modifier
      rw [hl₁, hne]
      exact ⟨rfl, .refl _, fun s' hs' => round_trip_kept hpair hs' line p fun _ => hbare⟩
    · rcases resolve_writes_public hpair c.current with hnone | hpub
      · exact absurd (by simp [rewriteLine, hnone]) hne
      obtain ⟨hc, hs, hroom⟩ := hroom (by rw [hpub]; rfl)
      obtain ⟨w, hw, hsplit, hscan⟩ := scanLine_public_placed hc hs rfl hbare hpub hroom hne
      rw [hl₁, hscan]
      refine ⟨rfl, readAlike_insertIdx_public hw hsplit, fun s' hs' => ?_⟩
      -- the rewritten line states `public`, so the second change substitutes the written word
      obtain ⟨hch', hstated⟩ := ofTokens_insertIdx_public hbare hw
      have hcur : (classify s' ((scanLine st line.toList).1.insertIdx w
          (.keyword .«public»))).1.current = .«public» := by
        simp [classify, hstated]
      obtain ⟨r, hr⟩ := resolve_public_isSome hpair
      rw [if_pos ⟨hsel.1, eligible_insertIdx_public hs' hw hsel.2⟩]
      exact rewriteLine_removes_public hpub (LineChange.ofTokens_of_bare hbare) hroom hne hch'
        (by rw [hcur]; exact hr) (resolve_writes_nothing hpair hr)
  · have hl₁ : line₁ = line := if_neg hsel
    rw [hl₁]
    exact ⟨rfl, .refl _, fun s' hs' => round_trip_kept hpair hs' line p fun h => absurd h hsel⟩

end

/-! ## The buffer -/

theorem List.forall₂_of_getElem? {α β : Type} {R : α → β → Prop} {l₁ : List α} {l₂ : List β}
    (hlen : l₁.length = l₂.length)
    (h : ∀ (i : Nat) a b, l₁[i]? = some a → l₂[i]? = some b → R a b) :
    List.Forall₂ R l₁ l₂ :=
  List.forall₂_of_length_eq_of_get hlen fun i h₁ h₂ =>
    h i _ _ (List.getElem?_eq_getElem h₁) (List.getElem?_eq_getElem h₂)

/-- Writing `public` on the selected lines that may carry a modifier and then removing it gives
the buffer back, as does making the API and then removing it, provided that no such line states a
level and that each one that gets the modifier has room for it (`LineChange.PublicRoom`), starting
outside comments and strings. -/
theorem rewritten_public_then_removed {lines : List String} {sel : List Nat}
    {c₁ c₂ : AccessChange}
    (hpair : (c₁ = .setLevel .«public» ∧ c₂ = .setLevel .implicit) ∨
      (c₁ = .makeAPI ∧ c₂ = .removeAPI))
    (hlines : ∀ i ∈ sel, ∀ line c, lines[i]? = some line →
      (Buffer.ofLines lines).classes[i]? = some c → c.eligible = true →
        Token.Bare (scanLine (stateBefore lines i) line.toList).1 ∧
          ((c₁.resolve c.current).isSome = true →
            (stateBefore lines i).inComment = false ∧ (stateBefore lines i).inString = false ∧
              c.change.PublicRoom (stateBefore lines i) line.toList)) :
    (Buffer.ofLines ((Buffer.ofLines lines).rewritten sel c₁)).rewritten sel c₂ = lines := by
  set L₁ := (Buffer.ofLines lines).rewritten sel c₁
  have hclass : ∀ {i line}, lines[i]? = some line → (Buffer.ofLines lines).classes[i]? =
      some (classify (scopeAfter {} (tokensOf lines) i)
        (scanLine (stateBefore lines i) line.toList).1).1 := by
    intro i line hl
    rw [Buffer.classes_getElem?, tokensOf_getElem?, hl]
    rfl
  -- each line through both changes, from the state and in the scope it had
  have hstep : ∀ i line, lines[i]? = some line → ∃ line₁, L₁[i]? = some line₁ ∧
      (scanLine (stateBefore lines i) line₁.toList).2 =
        (scanLine (stateBefore lines i) line.toList).2 ∧
      Scope.ReadAlike (scanLine (stateBefore lines i) line.toList).1
        (scanLine (stateBefore lines i) line₁.toList).1 ∧
      ∀ s', (scopeAfter {} (tokensOf lines) i).Similar s' →
        (if i ∈ sel ∧ (classify s' (scanLine (stateBefore lines i) line₁.toList).1).1.eligible = true
          then rewriteLine line₁ (classify s' (scanLine (stateBefore lines i) line₁.toList).1).1 c₂
          else line₁) = line := by
    intro i line hl
    exact ⟨_, Buffer.rewritten_getElem? sel c₁ hl (hclass hl),
      round_trip_line hpair (i ∈ sel) fun hi he => hlines i hi line _ hl (hclass hl) he⟩
  have hlen : L₁.length = lines.length := Buffer.rewritten_length _ sel c₁
  -- every line is lexed from the state it was lexed from before ...
  have hstates : ∀ i, stateBefore L₁ i = stateBefore lines i :=
    stateBefore_eq_of_states hlen fun i line line₁ hl hl₁ => by
      obtain ⟨l, h, hst, -⟩ := hstep i line hl
      rw [hl₁, Option.some.injEq] at h
      rw [h]
      exact hst
  -- ... and read in a similar scope
  have hread : List.Forall₂ Scope.ReadAlike (tokensOf lines) (tokensOf L₁) := by
    refine List.forall₂_of_getElem? (by rw [tokensOf_length, tokensOf_length, hlen])
      fun i ts ts₁ h h₁ => ?_
    rw [tokensOf_getElem?] at h h₁
    cases hl : lines[i]? with
    | none =>
      rw [hl] at h
      cases h
    | some line =>
      obtain ⟨line₁, hl₁, -, hra, -⟩ := hstep i line hl
      rw [hl, Option.map_some, Option.some.injEq] at h
      rw [hl₁, Option.map_some, Option.some.injEq, hstates] at h₁
      rw [← h, ← h₁]
      exact hra
  have hlines₁ : (Buffer.ofLines L₁).lines = L₁ := rfl
  apply List.ext_getElem?
  intro i
  cases hl : lines[i]? with
  | none =>
    rw [List.getElem?_eq_none_iff] at hl ⊢
    rw [Buffer.rewritten_length, hlines₁, hlen]
    exact hl
  | some line =>
    obtain ⟨line₁, hl₁, -, -, hback⟩ := hstep i line hl
    have hc₁ : (Buffer.ofLines L₁).classes[i]? = some (classify (scopeAfter {} (tokensOf L₁) i)
        (scanLine (stateBefore lines i) line₁.toList).1).1 := by
      rw [Buffer.classes_getElem?, tokensOf_getElem?, hl₁, hstates]
      rfl
    rw [Buffer.rewritten_getElem? sel c₂ hl₁ hc₁, hback _ (similar_scopeAfter hread i)]

/-- A structure and a static member of it, made API and back: the member gets `public` after
`static`, in a scope whose frame the first change made `public`. -/
theorem struct_member_api_round_trip :
    (Buffer.ofLines ((Buffer.ofLines ["struct S \x7b", "  static var x = 1", "\x7d"]).rewritten [0, 1]
      .makeAPI)).rewritten [0, 1] .removeAPI = ["struct S \x7b", "  static var x = 1", "\x7d"] :=
  rewritten_public_then_removed (.inr ⟨rfl, rfl⟩) fun i hi line c hl hc _ => by
    have hclasses : (Buffer.ofLines ["struct S \x7b", "  static var x = 1", "\x7d"]).classes =
        [⟨.insertBefore "struct", true, .internal⟩, ⟨.insertAfter "static", true, .internal⟩,
          ⟨.none, false, .internal⟩] := by cbv
    rw [hclasses] at hc
    simp only [List.mem_cons, List.not_mem_nil, or_false] at hi
    rcases hi with rfl | rfl
    · simp only [List.getElem?_cons_zero, Option.some.injEq] at hl hc
      subst hl hc
      have hT : (scanLine (stateBefore ["struct S \x7b", "  static var x = 1", "\x7d"] 0)
          "struct S \x7b".toList).1 = [.keyword .struct, .identifier "S", .punct .openBrace] := by cbv
      refine ⟨by rw [hT]; unfold Token.Bare; decide, fun _ => ⟨by cbv, by cbv, ?_⟩⟩
      exact ⟨[], " S \x7b".toList, by cbv, by simp⟩
    · simp only [List.getElem?_cons_succ, List.getElem?_cons_zero, Option.some.injEq] at hl hc
      subst hl hc
      have hst : stateBefore ["struct S \x7b", "  static var x = 1", "\x7d"] 1 = .initial := by cbv
      rw [hst]
      have hT : (scanLine .initial "  static var x = 1".toList).1 =
          [.keyword .static, .keyword .var, .identifier "x", .punct .equals, .identifier "1"] := by
        cbv
      have hloc : locate "  static var x = 1".toList "static".toList =
          some ("  ".toList, " var x = 1".toList) := by cbv
      -- the modifier goes right after the anchor, before the space that follows it
      have hplace : ∀ b a mid tail, locate "  static var x = 1".toList "static".toList = some (b, a) →
          insertionPoint "static".toList a = some (mid, tail) →
            mid = [] ∧ tail = " var x = 1".toList := by
        intro b a mid tail h₁ h₂
        rw [hloc, Option.some.injEq, Prod.mk.injEq] at h₁
        rw [← h₁.2] at h₂
        have hip : insertionPoint "static".toList " var x = 1".toList =
            some ([], " var x = 1".toList) := by cbv
        rw [hip, Option.some.injEq, Prod.mk.injEq] at h₂
        exact ⟨h₂.1.symm, h₂.2.symm⟩
      have hw : postfixWidth .initial "  static var x = 1".toList "static" = 1 := by cbv
      refine ⟨by rw [hT]; unfold Token.Bare; decide, fun _ => ⟨rfl, rfl, ?_, ?_, ?_, ?_, by cbv⟩⟩
      · exact ⟨_, _, hloc, by simp [isBlank_space]⟩
      · intro b a mid tail h₁ h₂
        obtain ⟨rfl, rfl⟩ := hplace b a mid tail h₁ h₂
        exact ⟨by decide, by cbv, by cbv⟩
      · intro b a mid tail h₁ h₂
        obtain ⟨rfl, rfl⟩ := hplace b a mid tail h₁ h₂
        exact ⟨⟨"var x = 1".toList, rfl⟩, by cbv⟩
      · intro x y hx hy
        rw [hT, hw] at hx hy
        simp only [List.take_succ_cons, List.take_zero, List.getLast?_singleton, Option.some.injEq,
          List.drop_succ_cons, List.drop_zero, List.head?_cons] at hx hy
        subst hx hy
        rfl

/-- Two buffers whose selected lines state no level and that the two changes do not give back.
Written at the end of a line, `public` has no space after it to be removed with. Written before a
line that starts inside a comment, it lands in the comment, where the second change does not
see it. -/
theorem public_written_not_removed :
    (tokensOf ["static"] = [[.keyword .static]] ∧
      (Buffer.ofLines ["static"]).classes = [⟨.insertAfter "static", true, .internal⟩] ∧
      (Buffer.ofLines ["static"]).rewritten [0] (.setLevel .«public») = ["static public"] ∧
      (Buffer.ofLines ["static public"]).rewritten [0] (.setLevel .implicit) =
        ["static public"]) ∧
    (tokensOf ["/*", "func */ func f()"] = [[], [.keyword .func, .identifier "f"]] ∧
      (Buffer.ofLines ["/*", "func */ func f()"]).classes[1]? =
        some ⟨.insertBefore "func", true, .internal⟩ ∧
      (Buffer.ofLines ["/*", "func */ func f()"]).rewritten [1] (.setLevel .«public») =
        ["/*", "public func */ func f()"] ∧
      (Buffer.ofLines ["/*", "public func */ func f()"]).rewritten [1] (.setLevel .implicit) =
        ["/*", "public func */ func f()"]) :=
  ⟨⟨by cbv, by cbv, by cbv, by cbv⟩, by cbv, by cbv, by cbv, by cbv⟩

end SwiftAccess
