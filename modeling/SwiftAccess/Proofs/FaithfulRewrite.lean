import SwiftAccess.Proofs.EditedTokens

/-!
# A rewritten buffer read again

A rewritten buffer is lexed and classified again from its first line. Two guards on each line a
change rewrites make that second reading follow the first, and each is needed: the edit of the text
can land elsewhere than the edit of the tokens (`rewritten_line_read_otherwise`), and a written or
removed token can change what its neighbours mean to the scope.

* `Classification.Located`: the line starts in code and the editor finds each anchor at the token
  the classifier placed the change at. Then the lexer reads the new line from the state it read the
  old one from and leaves the same state, so the whole rewritten buffer is lexed from the same
  states (`Buffer.rewritten_stateBefore`).
* `Classification.Faithful` adds that the contextual `open` rule reads the edited tokens as before
  and that no token written or removed stands between two tokens the scope reads together. Then
  each line of the rewritten buffer reads as the line or as the line's tokens edited
  (`Buffer.rewritten_tokens`), and the scopes of the two buffers compare level by level wherever
  the accesses the rewrite writes keep the comparison (`Buffer.rewritten_levels`).
-/

namespace SwiftAccess

open Lexer

namespace Classification

/-- Where a rewritten line starts and where the editor finds its anchors: in code, at the tokens
the classifier placed the change at. -/
structure Located (st : Lexer.State) (line : List Char) (c : Classification) (r : Resolution) :
    Prop where
  inComment : st.inComment = false
  inString : st.inString = false
  sited : c.change.Sited st (scanLine st line).1 line r.replacement.isEmpty

/-- A rewrite of a line that the rewritten buffer reads as the line's tokens edited, and whose
scope it reads alike. -/
structure Faithful (st : Lexer.State) (line : List Char) (c : Classification) (ac : AccessChange)
    (r : Resolution) : Prop extends Located st line c r where
  /-- The contextual `open` rule reads the edited tokens as it reads the line's. -/
  openRule : demoteOpen (c.editTokens st line ac r) = c.editOn st line ac r (scanLine st line).1
  /-- No token written or removed stands between two tokens that the scope reads together. -/
  apart : c.EditApart st line ac r

/-- A modifier written after the first word and its argument list follows some of the line's
tokens, never more than there are. -/
theorem Located.modifierIndex_le {st : Lexer.State} {line : List Char} {c : Classification}
    {r : Resolution} (h : c.Located st line r)
    (hchange : c.change = LineChange.ofTokens (scanLine st line).1) :
    c.change.modifierIndex st line ≤ (scanLine st line).1.length := by
  cases hc : c.change with
  | insertAfter A =>
    have hs := h.sited
    rw [hc] at hs
    have hne : (scanLine st line).1 ≠ [] := by
      intro hnil
      rw [hnil] at hchange
      rw [hchange] at hc
      cases hc
    exact postfixWidth_le_length h.inComment h.inString hs.1 hs.2 hne
  | none | insertBefore _ | substitute _ | setterSubstitute _ _ | setterInsertAfter _ _ =>
    exact Nat.zero_le _

end Classification

namespace Buffer

section

variable {lines : List String} {sel : List Nat} {ac : AccessChange}

/-- A property of every eligible selected line that the change applies to, given the line's
number, text, classification and resolution. -/
def ForRewritten (lines : List String) (sel : List Nat) (ac : AccessChange)
    (P : Nat → String → Classification → Resolution → Prop) : Prop :=
  ∀ j ∈ sel, ∀ line c r, lines[j]? = some line → (ofLines lines).classes[j]? = some c →
    c.eligible = true → ac.resolve c.current = some r → P j line c r

/-- On a selection of one line, a property of every line the change rewrites is one of that line,
under each resolution the change gives it. -/
theorem forRewritten_singleton {P : Nat → String → Classification → Resolution → Prop} {i : Nat}
    {line : String} {c : Classification} (hl : lines[i]? = some line)
    (hc : (ofLines lines).classes[i]? = some c)
    (h : ∀ r, ac.resolve c.current = some r → P i line c r) : ForRewritten lines [i] ac P := by
  intro j hj line' c' r hl' hc' _ hr
  obtain rfl := List.mem_singleton.1 hj
  obtain rfl := Option.some.inj (hl'.symm.trans hl)
  obtain rfl := Option.some.inj (hc'.symm.trans hc)
  exact h r hr

/-- Every eligible selected line that the change rewrites is located. -/
def RewritesLocated (lines : List String) (sel : List Nat) (ac : AccessChange) : Prop :=
  ForRewritten lines sel ac fun j line c r => c.Located (stateBefore lines j) line.toList r

/-- Every eligible selected line that the change rewrites is rewritten faithfully. -/
def RewritesFaithful (lines : List String) (sel : List Nat) (ac : AccessChange) : Prop :=
  ForRewritten lines sel ac fun j line c r => c.Faithful (stateBefore lines j) line.toList ac r

/-- Every eligible selected line that the change rewrites has at most one token of a kind. -/
def RewritesAtMostOne (lines : List String) (sel : List Nat) (ac : AccessChange)
    (p : Token → Bool) : Prop :=
  ForRewritten lines sel ac fun j line _ _ =>
    (scanLine (stateBefore lines j) line.toList).1.countP p ≤ 1

theorem RewritesFaithful.located (h : RewritesFaithful lines sel ac) :
    RewritesLocated lines sel ac :=
  fun j hj line c r hl hc he hr => (h j hj line c r hl hc he hr).toLocated

/-- A line of a buffer classified in the scope the lines above it leave. -/
theorem classes_getElem?_of_line {line : String} {i : Nat} (hl : lines[i]? = some line) :
    (ofLines lines).classes[i]? = some (classify (scopeAfter {} (tokensOf lines) i)
      (scanLine (stateBefore lines i) line.toList).1).1 := by
  rw [classes_getElem?, tokensOf_getElem?, hl]
  rfl

/-- Each line of a rewritten buffer leaves the lexer in the state the line did, and is the line or
reads as the line's tokens edited, where every rewritten line is located. -/
theorem rewritten_line (h : RewritesLocated lines sel ac) {j : Nat} {line : String}
    {c : Classification} (hl : lines[j]? = some line) (hc : (ofLines lines).classes[j]? = some c) :
    ∃ line₁, ((ofLines lines).rewritten sel ac)[j]? = some line₁ ∧
      (scanLine (stateBefore lines j) line₁.toList).2 =
        (scanLine (stateBefore lines j) line.toList).2 ∧
      (line₁ = line ∨ ∃ r, j ∈ sel ∧ c.eligible = true ∧ ac.resolve c.current = some r ∧
        (scanLine (stateBefore lines j) line₁.toList).1 =
          demoteOpen (c.editTokens (stateBefore lines j) line.toList ac r)) := by
  refine ⟨_, rewritten_getElem? sel ac hl hc, ?_⟩
  by_cases hsel : j ∈ sel ∧ c.eligible = true
  · rw [if_pos hsel]
    cases hr : ac.resolve c.current with
    | none =>
      have : rewriteLine line c ac = line := by simp [rewriteLine, hr]
      rw [this]
      exact ⟨rfl, .inl rfl⟩
    | some r =>
      have hloc := h j hsel.1 line c r hl hc hsel.2 hr
      rcases scanLine_rewriteLine hloc.inComment hloc.inString (change_of_classes_getElem? hl hc)
        hr hloc.sited with heq | hscan
      · rw [heq]
        exact ⟨rfl, .inl rfl⟩
      · rw [hscan]
        exact ⟨rfl, .inr ⟨r, hsel.1, hsel.2, rfl, rfl⟩⟩
  · rw [if_neg hsel]
    exact ⟨rfl, .inl rfl⟩

/-- A buffer whose rewritten lines are located is lexed, rewritten, from the states it was lexed
from. -/
theorem rewritten_stateBefore (h : RewritesLocated lines sel ac) (j : Nat) :
    stateBefore ((ofLines lines).rewritten sel ac) j = stateBefore lines j := by
  refine stateBefore_eq_of_states (rewritten_length _ sel ac) (fun i l l' hl hl' => ?_) j
  obtain ⟨line₁, h₁, hst, -⟩ := rewritten_line h hl (classes_getElem?_of_line hl)
  rw [hl', Option.some.injEq] at h₁
  rw [h₁]
  exact hst

/-- Each line of a faithfully rewritten buffer reads as the line, or as the line's tokens with the
change made on them. -/
theorem rewritten_tokens (h : RewritesFaithful lines sel ac) {j : Nat} {line : String}
    {c : Classification} (hl : lines[j]? = some line) (hc : (ofLines lines).classes[j]? = some c) :
    ∃ T₁, (tokensOf ((ofLines lines).rewritten sel ac))[j]? = some T₁ ∧
      (T₁ = (scanLine (stateBefore lines j) line.toList).1 ∨
        ∃ r, j ∈ sel ∧ c.eligible = true ∧ ac.resolve c.current = some r ∧
          T₁ = c.editOn (stateBefore lines j) line.toList ac r
            (scanLine (stateBefore lines j) line.toList).1) := by
  obtain ⟨line₁, h₁, -, hread⟩ := rewritten_line h.located hl hc
  refine ⟨_, by rw [tokensOf_getElem?, h₁, rewritten_stateBefore h.located]; rfl, ?_⟩
  rcases hread with rfl | ⟨r, hj, he, hr, hscan⟩
  · exact .inl rfl
  · refine .inr ⟨r, hj, he, hr, ?_⟩
    show (scanLine (stateBefore lines j) line₁.toList).1 = _
    rw [hscan]
    exact (h j hj line c r hl hc he hr).openRule

/-- A line of a faithfully rewritten buffer is classified, read as in `rewritten_tokens`, in the
scope the rewritten lines above it leave. -/
theorem rewritten_classes (h : RewritesLocated lines sel ac) {j : Nat} {line₁ : String}
    (hl : ((ofLines lines).rewritten sel ac)[j]? = some line₁) :
    (ofLines ((ofLines lines).rewritten sel ac)).classes[j]? =
      some (classify (scopeAfter {} (tokensOf ((ofLines lines).rewritten sel ac)) j)
        (scanLine (stateBefore lines j) line₁.toList).1).1 := by
  rw [classes_getElem?_of_line hl, rewritten_stateBefore h]

end

end Buffer

/-- The scope after one more line. -/
theorem scopeAfter_succ (s : Scope) (tss : List (List Token)) (j : Nat) :
    scopeAfter s tss (j + 1) = match tss[j]? with
      | some ts => (scopeAfter s tss j).addLine ts
      | none => scopeAfter s tss j := by
  unfold scopeAfter
  cases h : tss[j]? with
  | none =>
    rw [List.getElem?_eq_none_iff] at h
    rw [List.take_of_length_le (by omega), List.take_of_length_le h]
  | some ts =>
    rw [List.take_add_one, h, Option.toList_some, List.foldl_append]
    rfl

namespace Buffer

variable {lines : List String} {sel : List Nat} {ac : AccessChange}

section Levels

variable {R : Access → Access → Prop} (hrefl : ∀ x, R x x) (h : RewritesFaithful lines sel ac)
  (hopen : ForRewritten lines sel ac fun j line c r => c.change ≠ .none →
    Scope.OpensWhere (fun u => Scope.PushOK R
        (statedAccess? (scanLine (stateBefore lines j) line.toList).1)
        (r.target.modifier?.bind Keyword.access?) u.memberLevel)
      (scopeAfter {} (tokensOf lines) j) none none
      (scanLine (stateBefore lines j) line.toList).1)
include hrefl h hopen

/-- One line keeps the comparison: a line left as it is reads alike in compared scopes, and a
rewritten line reads as its edited tokens, whose access keeps the comparison where it opens a
scope. -/
theorem rewritten_levels_succ {j : Nat}
    (ih : Scope.Levels R (scopeAfter {} (tokensOf lines) j)
      (scopeAfter {} (tokensOf ((ofLines lines).rewritten sel ac)) j)) :
    Scope.Levels R (scopeAfter {} (tokensOf lines) (j + 1))
      (scopeAfter {} (tokensOf ((ofLines lines).rewritten sel ac)) (j + 1)) := by
  have hlen : (tokensOf ((ofLines lines).rewritten sel ac)).length = (tokensOf lines).length := by
    rw [tokensOf_length, tokensOf_length, rewritten_length]
    rfl
  rw [scopeAfter_succ, scopeAfter_succ]
  cases hl : lines[j]? with
  | none =>
    have h₁ : (tokensOf lines)[j]? = none := by rw [tokensOf_getElem?, hl]; rfl
    have h₂ : (tokensOf ((ofLines lines).rewritten sel ac))[j]? = none := by
      rw [List.getElem?_eq_none_iff] at h₁ ⊢
      omega
    rw [h₁, h₂]
    exact ih
  | some line =>
    have hc := classes_getElem?_of_line hl
    obtain ⟨T₁, hT₁, hread⟩ := rewritten_tokens h hl hc
    have hT : (tokensOf lines)[j]? = some (scanLine (stateBefore lines j) line.toList).1 := by
      rw [tokensOf_getElem?, hl]
      rfl
    rw [hT, hT₁]
    have hb := Scope.bareOnTop_scopeAfter (tokensOf lines) j
    rcases hread with rfl | ⟨r, hj, he, hr, rfl⟩
    · -- a line left as it is reads alike in compared scopes
      exact Scope.Levels.addTokens hrefl _ ih hb (fun _ => Iff.rfl)
        (Scope.opensWhere_true _ _ _ _) fun _ _ => Scope.pushOK_same hrefl _ _
    · have hf := h j hj line _ r hl hc he hr
      have hchange := change_of_classes_getElem? hl hc
      by_cases hne : (classify (scopeAfter {} (tokensOf lines) j)
          (scanLine (stateBefore lines j) line.toList).1).1.change = .none
      · exact Classification.levels_editOn (P := fun _ => True) hrefl hchange
          (hf.modifierIndex_le hchange) hf.apart ih hb (Scope.opensWhere_true _ _ _ _)
          fun h' => absurd hne h'
      · exact Classification.levels_editOn hrefl hchange (hf.modifierIndex_le hchange) hf.apart ih
          hb (hopen j hj line _ r hl hc he hr hne) fun _ _ hu => hu

/-- The scopes of a faithfully rewritten buffer compare with the buffer's level by level, when the
access each rewritten line writes keeps the comparison wherever the line opens a scope. -/
theorem rewritten_levels :
    ∀ j, Scope.Levels R (scopeAfter {} (tokensOf lines) j)
      (scopeAfter {} (tokensOf ((ofLines lines).rewritten sel ac)) j) := by
  intro j
  induction j with
  | zero => exact Scope.Levels.refl hrefl {}
  | succ j ih => exact rewritten_levels_succ hrefl h hopen ih

end Levels

end Buffer

end SwiftAccess
