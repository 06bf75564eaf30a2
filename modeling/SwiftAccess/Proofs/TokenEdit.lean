import SwiftAccess.Proofs.LocateSplit
import SwiftAccess.Proofs.ParenDepth
import SwiftAccess.Buffer

/-!
# Edits at the token level

The rewriter edits a line's text. This module states the same edits on the line's tokens, so
that an edit of the text can be compared with an edit of what the lexer read:
`LineChange.onTokens` replaces or removes the first plain modifier token, or inserts a modifier
keyword before the first token, after a postfix anchor's tokens, or after the setter modifier;
`SetterEdit.onTokens` keeps, removes or replaces the first setter modifier token; and
`Classification.editTokens` makes both, as `rewriteLine` does on the text.

The text edits are placed by `Edit.locate`, at the first acceptable occurrence of the anchor's text.
The token edits are placed where the classifier found the anchor's token. The two places agree
where the occurrence the editor finds stands as the first word of the line (`Edit.FirstWord`) or
as a whole word after plain code, with a text no other token has (`Edit.WholeWord`); `LineChange.Sited`
collects what each kind of change needs.

The contextual `open` rule reads a token by its neighbours, so the comparison is made on the
tokens before that rule (`Lexer.rawScan`); `Lexer.demoteOpen` changes no token's text, no setter
modifier and no length (`Lexer.demoteOpen_map`).
-/

namespace SwiftAccess

open Text

namespace Access

/-- The keyword written for a level; the default levels are written as nothing. -/
def modifier? : Access → Option Keyword
  | .«private» => some .«private»
  | .fileprivate => some .fileprivate
  | .internal | .implicit => none
  | .«public» => some .«public»
  | .«open» => some .«open»

/-- The setter modifier keyword of a level; a setter above `internal` is not written. -/
def setterModifier? : Access → Option Keyword
  | .«private» => some .privateSet
  | .fileprivate => some .fileprivateSet
  | .internal | .implicit => some .internalSet
  | .«public» | .«open» => none

theorem replacement_eq (a : Access) :
    a.replacement = (a.modifier?.map Keyword.spelling).getD "" := by
  cases a <;> rfl

theorem setterKeyword?_eq (a : Access) :
    a.setterKeyword? = a.setterModifier?.map Keyword.spelling := by
  cases a <;> rfl

theorem modifier?_isAccess {a : Access} {k : Keyword} (h : a.modifier? = some k) :
    k.isAccess = true ∧ k.isSetter = false := by
  cases a <;> simp [modifier?] at h <;> subst h <;> decide

theorem setterModifier?_isSetter {a : Access} {k : Keyword} (h : a.setterModifier? = some k) :
    k.isSetter = true ∧ k.isAccess = false := by
  cases a <;> simp [setterModifier?] at h <;> subst h <;> decide

end Access

/-- The level a change resolves to is written as its replacement. -/
theorem AccessChange.resolve_replacement {ac : AccessChange} {cur : Access} {r : Resolution}
    (h : ac.resolve cur = some r) : r.replacement = r.target.replacement := by
  unfold AccessChange.resolve at h
  obtain ⟨t, -, rfl⟩ := Option.map_eq_some_iff.1 h
  rfl

/-- A setter keyword is the setter modifier of the level it states. -/
theorem Keyword.setterModifier?_setterAccess {k : Keyword} (h : k.isSetter = true) :
    ((k.setterAccess?).getD .internal).setterModifier? = some k := by
  cases k <;> simp_all [Keyword.isSetter, Keyword.setterAccess?, Access.setterModifier?]

/-- A keyword is the one its spelling names. -/
theorem Keyword.ofWord?_spelling (k : Keyword) : Keyword.ofWord? k.spelling = some k := by
  cases k <;> decide

theorem Keyword.spelling_injective {k k' : Keyword} (h : k.spelling = k'.spelling) : k = k' := by
  have := Keyword.ofWord?_spelling k
  rw [h, Keyword.ofWord?_spelling] at this
  exact (Option.some.inj this).symm

namespace Token

/-- Whether a token is one of the five plain access modifiers. -/
def isAccessModifier (t : Token) : Bool := t.keyword?.any Keyword.isAccess

/-- Whether a token is one of the three setter modifiers. -/
def isSetterModifier (t : Token) : Bool := t.keyword?.any Keyword.isSetter

end Token

/-- The first keyword of a token list with a property stands where the first token with it does. -/
theorem getElem?_findIdx_of_find? {p : Keyword → Bool} {k : Keyword} :
    ∀ {ts : List Token}, (ts.filterMap Token.keyword?).find? p = some k →
      ts[ts.findIdx fun t => t.keyword?.any p]? = some (.keyword k)
  | [], h => by simp at h
  | t :: ts, h => by
    rw [List.findIdx_cons]
    match t, h with
    | .keyword k', h =>
      simp only [List.filterMap_cons, Token.keyword?, List.find?_cons] at h
      cases hp : p k' with
      | true =>
        rw [hp] at h
        cases h
        simp [Token.keyword?, hp]
      | false =>
        rw [hp] at h
        simpa [Token.keyword?, hp] using getElem?_findIdx_of_find? h
    | .attribute _, h | .punct _, h | .identifier _, h =>
      simpa [Token.keyword?] using getElem?_findIdx_of_find? (by simpa [Token.keyword?] using h)

/-! ## Positions in token lists -/

/-- Inserting at the length of a prefix puts the token right after it. -/
theorem insertIdx_prefix_length {α : Type} (pre post : List α) (u : α) :
    (pre ++ post).insertIdx pre.length u = pre ++ u :: post := by
  induction pre with
  | nil => simp
  | cons x pre ih => simp [List.insertIdx_succ_cons, ih]

/-- The first position with a property, where nothing before it has the property. -/
theorem findIdx_prefix_length {α : Type} {p : α → Bool} {pre post : List α} {t : α}
    (hpre : ∀ x ∈ pre, p x = false) (ht : p t = true) : (pre ++ t :: post).findIdx p = pre.length := by
  rw [List.findIdx_append, if_neg (by simp [List.findIdx_eq_length_of_false hpre])]
  simp [List.findIdx_cons, ht]

/-- Two positions of the only element with a property are one position. -/
theorem eq_of_countP_eq_one {α : Type} {p : α → Bool} :
    ∀ {l : List α} {i j : Nat} {x y : α}, l.countP p = 1 → l[i]? = some x → l[j]? = some y →
      p x = true → p y = true → i = j
  | [], _, _, _, _, _, hi, _, _, _ => by simp at hi
  | a :: l, i, j, x, y, hc, hi, hj, hx, hy => by
    have hrest : ∀ {k : Nat} {z : α}, l[k]? = some z → p z = true → p a = false := by
      intro k z hk hz
      cases ha : p a
      · rfl
      · have := List.countP_pos_iff.2 ⟨z, List.mem_of_getElem? hk, hz⟩
        rw [List.countP_cons_of_pos ha] at hc
        omega
    cases i with
    | zero =>
      cases j with
      | zero => rfl
      | succ j =>
        simp only [List.getElem?_cons_zero, Option.some.injEq, List.getElem?_cons_succ] at hi hj
        subst hi
        rw [hrest hj hy] at hx
        cases hx
    | succ i =>
      cases j with
      | zero =>
        simp only [List.getElem?_cons_zero, Option.some.injEq, List.getElem?_cons_succ] at hi hj
        subst hj
        rw [hrest hi hx] at hy
        cases hy
      | succ j =>
        simp only [List.getElem?_cons_succ] at hi hj
        have hc' : l.countP p = 1 := by
          rwa [List.countP_cons_of_neg (by simp [hrest hi hx])] at hc
        rw [eq_of_countP_eq_one hc' hi hj hx hy]

/-! ## The contextual `open` rule -/

theorem Token.eq_of_isKeyword {t : Token} {k : Keyword} (h : t.isKeyword k = true) :
    t = .keyword k := by
  cases t <;> simp_all [Token.isKeyword, Token.keyword?]

/-- One token under the contextual `open` rule keeps whatever reads the name `open` as the
keyword. -/
theorem Lexer.demote_map {β : Type} (f : Token → β)
    (hf : f (.identifier "open") = f (.keyword .«open»)) (t : Token) (b : Bool) :
    f (if (t.isKeyword .«open» && b) = true then .identifier "open" else t) = f t := by
  split
  · next h => rw [Token.eq_of_isKeyword (Bool.and_eq_true_iff.1 h).1, hf]
  · rfl

theorem Lexer.eq_of_demote_keyword {t : Token} {b : Bool} {k : Keyword}
    (h : (if (t.isKeyword .«open» && b) = true then Token.identifier "open" else t) = .keyword k) :
    t = .keyword k := by
  split at h
  · cases h
  · exact h

theorem Lexer.demoteOpen.go_map {β : Type} (f : Token → β)
    (hf : f (.identifier "open") = f (.keyword .«open»)) :
    ∀ (prev : Option Token) (ts : List Token), (demoteOpen.go prev ts).map f = ts.map f
  | _, [] => rfl
  | prev, t :: ts => by
    simp only [demoteOpen.go, List.map_cons, demoteOpen.go_map f hf (some t) ts]
    exact congrArg (· :: ts.map f) (demote_map f hf t _)

/-- The contextual `open` rule changes no token's text and no setter modifier, and keeps the
number of tokens. -/
theorem Lexer.demoteOpen_map {β : Type} (f : Token → β)
    (hf : f (.identifier "open") = f (.keyword .«open»)) (ts : List Token) :
    (demoteOpen ts).map f = ts.map f :=
  demoteOpen.go_map f hf none ts

/-- A keyword the contextual `open` rule gives is a keyword of the tokens before it. -/
theorem Lexer.demoteOpen.go_getElem?_keyword {k : Keyword} :
    ∀ (prev : Option Token) (ts : List Token) (i : Nat),
      (demoteOpen.go prev ts)[i]? = some (.keyword k) → ts[i]? = some (.keyword k)
  | _, [], _, h => by simp [demoteOpen.go] at h
  | prev, t :: ts, 0, h => by
    simp only [demoteOpen.go, List.getElem?_cons_zero, Option.some.injEq] at h ⊢
    exact eq_of_demote_keyword h
  | prev, t :: ts, i + 1, h => by
    simp only [demoteOpen.go, List.getElem?_cons_succ] at h ⊢
    exact demoteOpen.go_getElem?_keyword (some t) ts i h

/-! ## Token edits -/

namespace LineChange

/-- A change made on a line's tokens `raw`: `ts` are the tokens the line was classified from,
where the first plain modifier is found, `width` is the number of tokens a postfix modifier
follows, and `written` is the keyword written, `none` for a level written as nothing. -/
def onTokens (ts : List Token) (width : Nat) (written : Option Keyword) (raw : List Token) :
    LineChange → List Token
  | .none => raw
  | .substitute _ | .setterSubstitute _ _ =>
    match written with
    | some k => raw.set (ts.findIdx Token.isAccessModifier) (.keyword k)
    | Option.none => raw.eraseIdx (ts.findIdx Token.isAccessModifier)
  | .insertBefore _ =>
    match written with
    | some k => .keyword k :: raw
    | Option.none => raw
  | .insertAfter _ =>
    match written with
    | some k => raw.insertIdx width (.keyword k)
    | Option.none => raw
  | .setterInsertAfter _ _ =>
    match written with
    | some k => raw.insertIdx (ts.findIdx Token.isSetterModifier + 1) (.keyword k)
    | Option.none => raw

end LineChange

/-- A setter edit made on tokens, at the first setter modifier. -/
def SetterEdit.onTokens (raw : List Token) : SetterEdit → List Token
  | .keep => raw
  | .remove => raw.eraseIdx (raw.findIdx Token.isSetterModifier)
  | .replace level =>
    match level.setterModifier? with
    | some k => raw.set (raw.findIdx Token.isSetterModifier) (.keyword k)
    | none => raw

namespace Edit

/-- The number of tokens that a modifier written after `anchor` follows: those of the anchor with
its argument list, lexed from the line's state. -/
def postfixWidth (st : Lexer.State) (line : List Char) (anchor : String) : Nat :=
  match locate line anchor.toList with
  | some (_, a) =>
    match insertionPoint anchor.toList a with
    | some (mid, _) => (Lexer.scanLine st (anchor.toList ++ mid)).1.length
    | none => 1
  | none => 1

end Edit

/-- The raw tokens of `line` with the change that `rewriteLine` makes for `ac` at resolution `r`,
made on the tokens: the primary edit of the line's change, then the edit of its setter modifier. -/
def Classification.editTokens (st : Lexer.State) (line : List Char) (c : Classification)
    (ac : AccessChange) (r : Resolution) : List Token :=
  let width := match c.change with
    | .insertAfter a => Edit.postfixWidth st line a
    | _ => 0
  let primary := c.change.onTokens (Lexer.scanLine st line).1 width r.target.modifier?
    (Lexer.rawScan st line).1
  match c.change.setter? with
  | some s => (ac.resolveSetter s r.target).onTokens primary
  | none => primary

/-! ## Where the editor's occurrence is the token's -/

namespace Edit

/-- The editor finds `anchor` as the first word of `line`: only blanks stand before the occurrence
it locates. -/
def FirstWord (line : List Char) (anchor : String) : Prop :=
  ∃ lead rest, locate line anchor.toList = some (lead, rest) ∧ ∀ c ∈ lead, isBlank c = true

/-- The editor finds `anchor` as a whole word after plain code: the text before the occurrence it
locates closes its string literals and holds no comment or multiline string marker
(`Lexer.PlainCode`), a blank or the line's edge stands on either side; and no other token of `ts`
has the anchor's text. -/
def WholeWord (ts : List Token) (line : List Char) (anchor : String) : Prop :=
  ts.countP (·.text == anchor) = 1 ∧
    ∃ b a, locate line anchor.toList = some (b, a) ∧ Lexer.PlainCode b ∧
      b.getLast?.all isBlank = true ∧ a.head?.all isBlank = true

/-- A space follows the occurrence of `anchor` that the editor finds. -/
def SpaceAfter (line : List Char) (anchor : String) : Prop :=
  ∃ b a, locate line anchor.toList = some (b, ' ' :: a)

/-- A modifier written after `anchor` follows plain code, the anchor with its argument list, and
lands outside parentheses, before a blank or the line's end. -/
def PostfixRoom (st : Lexer.State) (line : List Char) (anchor : String) : Prop :=
  ∀ b a mid tail, locate line anchor.toList = some (b, a) →
    insertionPoint anchor.toList a = some (mid, tail) →
      Lexer.Plain (anchor.toList ++ mid) ∧ tail.head?.all isBlank = true ∧
        depthAfter st.parenDepth (anchor.toList ++ mid) = 0

end Edit

/-- Where each kind of change needs the editor's occurrence of its anchor: as the line's first
word for a modifier written before or after the first token, as a whole word otherwise, followed by
a space where a plain modifier is removed beside a setter modifier. -/
def LineChange.Sited (st : Lexer.State) (ts : List Token) (line : List Char) (removes : Bool) :
    LineChange → Prop
  | .none => True
  | .insertBefore a => Edit.FirstWord line a
  | .insertAfter a => Edit.FirstWord line a ∧ Edit.PostfixRoom st line a
  | .substitute a => Edit.WholeWord ts line a
  | .setterSubstitute s a =>
    Edit.WholeWord ts line a ∧ (removes = true → Edit.SpaceAfter line a) ∧
      ∀ sp, s.setterKeyword? = some sp → Edit.WholeWord ts line sp
  | .setterInsertAfter _ a => Edit.WholeWord ts line a

end SwiftAccess
