import SwiftAccess.Proofs.FaithfulRewrite

/-!
# Running a change again

A fixed level (`setLevel`) and the API changes (`makeAPI`, `removeAPI`) decide what to do with a
line from whether its level is one they apply to, not from how far that level is from the target.
Two levels such a change resolves the same way are alike to it (`AccessChange.Alike`), and the
scopes of a buffer it rewrote faithfully pass on, line by line, levels alike to those the buffer's
own scopes passed on (`Buffer.rewritten_levels_alike`). A line the change did not rewrite is
therefore rewritten by a second run exactly as the first run would have rewritten it. Main
statements:

* `rewritten_in_two_parts`: applied to two disjoint selections one after the other, the change
  rewrites the buffer as it does applied once to both;
* `rewritten_again_unchanged`: applied a second time to the same selection, it changes nothing,
  since every line it rewrote now states its target, or states no level where the target is
  written as nothing (`rewriteLine_edited_again`).

`makeAPI` writes `public`, which a scope passes on as `internal`. A line it rewrote that stated no
level passed on `internal` already, unless a closing brace on the line took the scopes it opens
out to where members are not `internal` (`Buffer.OpensInternal`). For the second run to find
nothing left to do, a rewritten line must also state at most one plain modifier where the target
is written as nothing (`removeAPI`, and a fixed level `internal` or none), and at most one setter
modifier where the change is a fixed level. `rewritten_in_parts_differs` and
`rewritten_again_differs` show what goes wrong without these guards.
-/

namespace SwiftAccess

open Lexer

namespace AccessChange

/-- Two levels that a change resolves the same way. -/
def Alike (ac : AccessChange) (x y : Access) : Prop := ac.resolve x = ac.resolve y

/-- A change that sets a fixed level, or moves a declaration into or out of the API. -/
def IsAbsoluteOrAPI : AccessChange → Bool
  | .setLevel _ | .makeAPI | .removeAPI => true
  | .increase | .decrease => false

/-- `removeAPI` applies to no level at or below `internal`. -/
theorem removeAPI_resolve_of_rank_le {x : Access} (h : x.rank ≤ 0) :
    removeAPI.resolve x = none := by
  cases x <;> simp_all [resolve, step, Access.rank]

theorem makeAPI_target {x : Access} {r : Resolution} (h : makeAPI.resolve x = some r) :
    r.target = .«public» := by
  unfold resolve at h
  obtain ⟨t, ht, rfl⟩ := Option.map_eq_some_iff.1 h
  cases x <;> simp_all [step]

theorem removeAPI_target {x : Access} {r : Resolution} (h : removeAPI.resolve x = some r) :
    r.target = .internal := by
  unfold resolve at h
  obtain ⟨t, ht, rfl⟩ := Option.map_eq_some_iff.1 h
  cases x <;> simp_all [step]

/-- A level that `makeAPI` applies to is one it resolves as `internal`, also clamped. -/
theorem makeAPI_alike_clamp {x : Access} (h : (makeAPI.resolve x).isSome) :
    makeAPI.Alike x.clampToInternal .internal := by
  cases x <;> simp_all [resolve, step] <;> rfl

/-- A fixed level resolves every two levels alike, whatever a line writes. -/
theorem pushOK_setLevel (x : Access) (a a' : Option Access) (y : Access) :
    Scope.PushOK (setLevel x).Alike a a' y := fun _ _ _ => rfl

/-- `removeAPI` resolves alike every two levels that scopes pass on. -/
theorem pushOK_removeAPI (a a' : Option Access) {x : Access} (hx : x.rank ≤ 0) :
    Scope.PushOK removeAPI.Alike a a' x := by
  intro y hy _
  unfold Alike
  rw [removeAPI_resolve_of_rank_le (Scope.passOn_rank_le a hx),
    removeAPI_resolve_of_rank_le (Scope.passOn_rank_le a' hy)]

/-- A line that writes `public` passes on `internal`, which keeps the comparison where the line
passed on a level that `makeAPI` resolves as `internal`. -/
theorem pushOK_makeAPI {a : Option Access} {x : Access}
    (h : makeAPI.Alike (Scope.passOn a x) .internal) :
    Scope.PushOK makeAPI.Alike a (some .«public») x := fun _ _ _ => h

end AccessChange

/-- Substituting an anchor by its own text gives the line back. -/
theorem Edit.substitute_self (line anchor : List Char) :
    Edit.substitute line anchor anchor = line := by
  cases hloc : Edit.locate line anchor with
  | none => simp [Edit.substitute, hloc]
  | some p =>
    obtain ⟨b, a⟩ := p
    have hne : anchor.isEmpty = false := by
      cases anchor with
      | nil => simp [Edit.locate] at hloc
      | cons _ _ => rfl
    rw [Edit.substitute_of_ne_nil hloc hne]
    exact (Edit.locate_eq_some hloc).1.symm

section Line

variable {line : String} {c : Classification} {ac : AccessChange}

theorem rewriteLine_of_resolve_none (h : ac.resolve c.current = none) :
    rewriteLine line c ac = line := by
  simp [rewriteLine, h]

theorem rewriteLine_of_change_none (h : c.change = .none) : rewriteLine line c ac = line := by
  cases hr : ac.resolve c.current with
  | none => exact rewriteLine_of_resolve_none hr
  | some r => simp [rewriteLine, hr, h, Edit.applyChange, LineChange.setter?]

/-- A line whose plain modifier is substituted by its own text is left as it is. -/
theorem rewriteLine_of_substitute_self {A : String} (hc : c.change = .substitute A)
    (hr : ∀ r, ac.resolve c.current = some r → r.replacement = A) :
    rewriteLine line c ac = line := by
  cases h : ac.resolve c.current with
  | none => exact rewriteLine_of_resolve_none h
  | some r =>
    simp [rewriteLine, h, hc, LineChange.setter?, Edit.applyChange, hr r h, Edit.substitute_self]

/-- A line read in two scopes whose levels a change resolves alike is eligible in both or in
neither, and rewritten alike. -/
theorem classify_alike {s s' : Scope} (h : Scope.Levels ac.Alike s s') (T : List Token)
    (line : String) :
    (classify s' T).1.eligible = (classify s T).1.eligible ∧
      rewriteLine line (classify s' T).1 ac = rewriteLine line (classify s T).1 ac := by
  refine ⟨(eligible_eq_of_similar h.similar rfl rfl).symm, ?_⟩
  have hres : ac.resolve (classify s' T).1.current = ac.resolve (classify s T).1.current := by
    show ac.resolve ((statedAccess? T).getD s'.memberLevel) =
      ac.resolve ((statedAccess? T).getD s.memberLevel)
    cases statedAccess? T with
    | some a => rfl
    | none => exact h.memberLevel.symm
  unfold rewriteLine
  rw [hres]
  rfl

end Line

/-! ## A line rewritten to its target -/

section Edited

variable {st : State} {line line₁ : String} {c : Classification} {r : Resolution}

/-- A line that a fixed level written as a keyword was edited to states that keyword and no
setter modifier, so the keyword is substituted by itself. -/
theorem rewriteLine_edited_setLevel_keyword {x : Access} {k : Keyword}
    (hchange : c.change = LineChange.ofTokens (scanLine st line.toList).1)
    (hne : c.change ≠ .none)
    (hw : c.change.modifierIndex st line.toList ≤ (scanLine st line.toList).1.length)
    (hsetter : (scanLine st line.toList).1.countP Token.isSetterModifier ≤ 1)
    (hk : x.modifier? = some k) (s : Scope) :
    rewriteLine line₁ (classify s (c.editOn st line.toList (.setLevel x) ⟨x, x.replacement⟩
      (scanLine st line.toList).1)).1 (.setLevel x) = line₁ := by
  -- the edited tokens state `k` as their first plain modifier, and no setter modifier
  have hplain : ((c.editOn st line.toList (.setLevel x) ⟨x, x.replacement⟩
      (scanLine st line.toList).1).filterMap Token.keyword?).find? Keyword.isAccess = some k := by
    rw [Classification.find?_access_editOn hchange hw,
      Classification.find?_access_primaryOn hchange hne hw hk]
  have hnoset : ((c.editOn st line.toList (.setLevel x) ⟨x, x.replacement⟩
      (scanLine st line.toList).1).filterMap Token.keyword?).find? Keyword.isSetter = none :=
    find?_setter_of_not_setter fun _ ht =>
      Classification.not_setter_editOn_setLevel hchange hw hsetter ht
  apply rewriteLine_of_substitute_self (LineChange.ofTokens_of_find? hnoset hplain)
  intro r' hr'
  rw [AccessChange.resolve_setLevel, Option.some.injEq] at hr'
  rw [← hr', Access.replacement_eq, hk]
  rfl

/-- A line that a fixed level written as nothing was edited to states no level, so the change
writes nothing on it. -/
theorem rewriteLine_edited_setLevel_empty {x : Access}
    (hchange : c.change = LineChange.ofTokens (scanLine st line.toList).1)
    (hw : c.change.modifierIndex st line.toList ≤ (scanLine st line.toList).1.length)
    (hplain : (scanLine st line.toList).1.countP Token.isAccessModifier ≤ 1)
    (hsetter : (scanLine st line.toList).1.countP Token.isSetterModifier ≤ 1)
    (hk : x.modifier? = none) (s : Scope) :
    rewriteLine line₁ (classify s (c.editOn st line.toList (.setLevel x) ⟨x, x.replacement⟩
      (scanLine st line.toList).1)).1 (.setLevel x) = line₁ := by
  have hnone : ((c.editOn st line.toList (.setLevel x) ⟨x, x.replacement⟩
      (scanLine st line.toList).1).filterMap Token.keyword?).find? Keyword.isAccess = none := by
    rw [Classification.find?_access_editOn hchange hw,
      Classification.find?_access_primaryOn_of_none hchange hw hk hplain]
  have hbare : Token.Bare (c.editOn st line.toList (.setLevel x) ⟨x, x.replacement⟩
      (scanLine st line.toList).1) := fun t ht =>
    ⟨any_keyword_of_find?_eq_none hnone t ht,
      Classification.not_setter_editOn_setLevel hchange hw hsetter ht⟩
  apply rewriteLine_of_empty (LineChange.ofTokens_of_bare hbare)
  intro r' hr'
  rw [AccessChange.resolve_setLevel, Option.some.injEq] at hr'
  rw [← hr', Access.replacement_eq, hk]
  rfl

/-- A line that an absolute or API change edited to its target is left as it is by the same
change, read in any scope: it states the target, or states no level where the target is written
as nothing and it stated at most one plain modifier, and a fixed level has removed its setter
modifier where it had at most one. -/
theorem rewriteLine_edited_again {ac : AccessChange} (hac : ac.IsAbsoluteOrAPI = true)
    (hchange : c.change = LineChange.ofTokens (scanLine st line.toList).1)
    (hw : c.change.modifierIndex st line.toList ≤ (scanLine st line.toList).1.length)
    (hr : ac.resolve c.current = some r)
    (hplain : r.target.modifier? = none →
      (scanLine st line.toList).1.countP Token.isAccessModifier ≤ 1)
    (hsetter : (∃ x, ac = .setLevel x) →
      (scanLine st line.toList).1.countP Token.isSetterModifier ≤ 1)
    (hscan : (scanLine st line₁.toList).1 =
      c.editOn st line.toList ac r (scanLine st line.toList).1) (s : Scope) :
    rewriteLine line₁ (classify s (scanLine st line₁.toList).1).1 ac = line₁ := by
  rw [hscan]
  by_cases hne : c.change = .none
  · -- a line that takes no modifier is not edited, and takes none the second time
    apply rewriteLine_of_change_none
    show LineChange.ofTokens _ = _
    rw [Classification.editOn_of_change_none hne, ← hchange, hne]
  cases ac with
  | setLevel x =>
    rw [AccessChange.resolve_setLevel, Option.some.injEq] at hr
    subst hr
    cases hk : x.modifier? with
    | some k => exact rewriteLine_edited_setLevel_keyword hchange hne hw (hsetter ⟨x, rfl⟩) hk s
    | none =>
      exact rewriteLine_edited_setLevel_empty hchange hw (hplain hk) (hsetter ⟨x, rfl⟩) hk s
  | makeAPI =>
    -- the line now states `public`, which `makeAPI` leaves alone
    apply rewriteLine_of_resolve_none
    have hk : r.target.modifier? = some .«public» := by rw [AccessChange.makeAPI_target hr]; rfl
    show AccessChange.makeAPI.resolve ((statedAccess? _).getD s.memberLevel) = none
    rw [Classification.statedAccess?_editOn hchange hne hw hk]
    rfl
  | removeAPI =>
    -- the line now states no level, and takes one at most `internal` from its scope
    apply rewriteLine_of_resolve_none
    have hk : r.target.modifier? = none := by rw [AccessChange.removeAPI_target hr]; rfl
    show AccessChange.removeAPI.resolve ((statedAccess? _).getD s.memberLevel) = none
    rw [Classification.statedAccess?_editOn_of_none hchange hw hk (hplain hk)]
    exact AccessChange.removeAPI_resolve_of_rank_le (Scope.memberLevel_rank_le s)
  | increase | decrease => exact absurd hac (by decide)

end Edited

/-! ## The buffer read again -/

namespace Buffer

variable {lines : List String} {sel : List Nat} {ac : AccessChange}

theorem rewritten_getElem?_eq_none {b : Buffer} {i : Nat} (h : b.lines[i]? = none) :
    (b.rewritten sel ac)[i]? = none := by
  rw [List.getElem?_eq_none_iff] at h ⊢
  rw [rewritten_length]
  exact h

theorem eq_classify_of_getElem? {i : Nat} {line : String} {c : Classification}
    (hl : lines[i]? = some line) (hc : (ofLines lines).classes[i]? = some c) :
    c = (classify (scopeAfter {} (tokensOf lines) i)
      (scanLine (stateBefore lines i) line.toList).1).1 :=
  Option.some.inj (hc.symm.trans (classes_getElem?_of_line hl))

/-- Every eligible selected line that `makeAPI` rewrites and that states no level opens each
scope it opens where members are `internal`. -/
def OpensInternal (lines : List String) (sel : List Nat) : Prop :=
  ForRewritten lines sel .makeAPI fun j line _ _ =>
    statedAccess? (scanLine (stateBefore lines j) line.toList).1 = none →
      Scope.OpensWhere (fun u => u.memberLevel = .internal) (scopeAfter {} (tokensOf lines) j)
        none none (scanLine (stateBefore lines j) line.toList).1

/-- Rewritten faithfully by an absolute or API change, a buffer's scopes pass on levels that the
change resolves as it resolved those the buffer's scopes passed on, where `makeAPI` opens scopes
only among internal members. -/
theorem rewritten_levels_alike (hac : ac.IsAbsoluteOrAPI = true)
    (h : RewritesFaithful lines sel ac) (hapi : ac = .makeAPI → OpensInternal lines sel)
    (j : Nat) :
    Scope.Levels ac.Alike (scopeAfter {} (tokensOf lines) j)
      (scopeAfter {} (tokensOf ((ofLines lines).rewritten sel ac)) j) := by
  refine rewritten_levels (R := ac.Alike) (fun _ => rfl) h (fun j hj line c r hl hc he hr _ => ?_) j
  cases ac with
  | setLevel x =>
    exact Scope.opensWhere_of_forall (fun _ => AccessChange.pushOK_setLevel x _ _ _) _ _ _ _
  | removeAPI =>
    exact Scope.opensWhere_of_forall
      (fun u => AccessChange.pushOK_removeAPI _ _ (Scope.memberLevel_rank_le u)) _ _ _ _
  | makeAPI =>
    rw [AccessChange.makeAPI_target hr]
    cases hst : statedAccess? (scanLine (stateBefore lines j) line.toList).1 with
    | some b =>
      -- the line states the level it is at, which `makeAPI` applies to
      have hcur : c.current = b := by
        rw [eq_classify_of_getElem? hl hc]
        show (statedAccess? _).getD _ = b
        rw [hst]
        rfl
      have hb : (AccessChange.makeAPI.resolve b).isSome := by rw [← hcur, hr]; rfl
      exact Scope.opensWhere_of_forall
        (fun u => AccessChange.pushOK_makeAPI (a := some b) (x := u.memberLevel)
          (AccessChange.makeAPI_alike_clamp hb)) _ _ _ _
    | none =>
      exact (hapi rfl j hj line c r hl hc he hr hst).mono fun u hu =>
        AccessChange.pushOK_makeAPI (by rw [hu]; rfl)
  | increase | decrease => exact absurd hac (by decide)

end Buffer

open Buffer in
/-- An absolute or API change applied to two disjoint selections one after the other rewrites a
buffer as it does applied once to both, where the first part is rewritten faithfully and, for
`makeAPI`, opens scopes only among internal members. -/
theorem rewritten_in_two_parts {lines : List String} {sel₁ sel₂ : List Nat} {ac : AccessChange}
    (hac : ac.IsAbsoluteOrAPI = true) (hdisj : ∀ j ∈ sel₁, j ∉ sel₂)
    (hfaith : RewritesFaithful lines sel₁ ac) (hapi : ac = .makeAPI → OpensInternal lines sel₁) :
    (ofLines ((ofLines lines).rewritten sel₁ ac)).rewritten sel₂ ac =
      (ofLines lines).rewritten (sel₁ ++ sel₂) ac := by
  apply List.ext_getElem?
  intro i
  cases hl : lines[i]? with
  | none =>
    rw [rewritten_getElem?_eq_none (rewritten_getElem?_eq_none hl), rewritten_getElem?_eq_none hl]
  | some line =>
    have hc := classes_getElem?_of_line hl
    have hl₁ := rewritten_getElem? (b := ofLines lines) sel₁ ac hl hc
    rw [rewritten_getElem? sel₂ ac hl₁ (rewritten_classes hfaith.located hl₁),
      rewritten_getElem? (b := ofLines lines) (sel₁ ++ sel₂) ac hl hc]
    congr 1
    by_cases h₁ : i ∈ sel₁
    · -- the first part rewrote the line, and the second passes it by
      simp [h₁, hdisj i h₁]
    · -- the line reads as before, in a scope whose levels the change resolves alike
      obtain ⟨helig, hrw⟩ := classify_alike (rewritten_levels_alike hac hfaith hapi i)
        (scanLine (stateBefore lines i) line.toList).1 line
      simp only [h₁, false_and, if_false, List.mem_append, false_or, helig, hrw]

/-- A structure made API, then its member: the same as both at once. -/
theorem struct_then_member_api :
    (Buffer.ofLines ((Buffer.ofLines ["struct S \x7b", "var x = 1", "\x7d"]).rewritten [0]
        .makeAPI)).rewritten [1] .makeAPI =
      (Buffer.ofLines ["struct S \x7b", "var x = 1", "\x7d"]).rewritten ([0] ++ [1]) .makeAPI := by
  have hc : (Buffer.ofLines ["struct S \x7b", "var x = 1", "\x7d"]).classes[0]? =
      some ⟨.insertBefore "struct", true, .internal⟩ := by cbv
  refine rewritten_in_two_parts rfl (by decide) (Buffer.forRewritten_singleton rfl hc fun r hr => ?_)
    fun _ => Buffer.forRewritten_singleton rfl hc fun _ _ _ => ?_
  · cases hr
    exact ⟨⟨by cbv, by cbv, ⟨[], " S \x7b".toList, by cbv, by simp⟩⟩, by cbv, trivial,
      fun _ h => by cases h⟩
  · -- the structure opens where members are internal
    cbv
    decide

/-- Two buffers that an API change rewrites differently in two parts than at once. Removing
`public` from the first line joins two slashes into a comment that hides the function the second
line stood in, so the second part rewrites a line the whole selection found ineligible. Made
`public`, the third line passes `public` on to the structure it opens after its closing braces,
where the private structure around passed on `private`, so the second part makes a line `public`
that `makeAPI` left alone. -/
theorem rewritten_in_parts_differs :
    ((Buffer.ofLines ((Buffer.ofLines ["/public / func g() \x7b", "public func f()", "\x7d"]).rewritten
        [0] .removeAPI)).rewritten [1] .removeAPI = ["// func g() \x7b", "func f()", "\x7d"] ∧
      (Buffer.ofLines ["/public / func g() \x7b", "public func f()", "\x7d"]).rewritten [0, 1]
        .removeAPI = ["// func g() \x7b", "public func f()", "\x7d"]) ∧
    ((Buffer.ofLines ((Buffer.ofLines ["private struct O \x7b", "public struct S \x7b",
        "struct A \x7b\x7d \x7d struct B \x7b", "func f()", "\x7d", "\x7d"]).rewritten [2]
          .makeAPI)).rewritten [3] .makeAPI =
        ["private struct O \x7b", "public struct S \x7b", "public struct A \x7b\x7d \x7d struct B \x7b",
          "public func f()", "\x7d", "\x7d"] ∧
      (Buffer.ofLines ["private struct O \x7b", "public struct S \x7b",
        "struct A \x7b\x7d \x7d struct B \x7b", "func f()", "\x7d", "\x7d"]).rewritten [2, 3] .makeAPI =
        ["private struct O \x7b", "public struct S \x7b", "public struct A \x7b\x7d \x7d struct B \x7b",
          "func f()", "\x7d", "\x7d"]) :=
  ⟨⟨by cbv, by cbv⟩, by cbv, by cbv⟩

open Buffer in
/-- Applied a second time to the same selection, an absolute or API change leaves a buffer as the
first time left it, where every line it rewrote was rewritten faithfully and, where its target is
written as nothing, states at most one plain modifier; where the change is a fixed level, every
such line states at most one setter modifier; and, for `makeAPI`, every such line opens scopes
only among internal members. -/
theorem rewritten_again_unchanged {lines : List String} {sel : List Nat} {ac : AccessChange}
    (hac : ac.IsAbsoluteOrAPI = true) (hfaith : RewritesFaithful lines sel ac)
    (hplain : ForRewritten lines sel ac fun j line _ r => r.target.modifier? = none →
      (scanLine (stateBefore lines j) line.toList).1.countP Token.isAccessModifier ≤ 1)
    (hsetter : ∀ x, ac = .setLevel x → RewritesAtMostOne lines sel ac Token.isSetterModifier)
    (hapi : ac = .makeAPI → OpensInternal lines sel) :
    (ofLines ((ofLines lines).rewritten sel ac)).rewritten sel ac =
      (ofLines lines).rewritten sel ac := by
  apply List.ext_getElem?
  intro i
  cases hl : lines[i]? with
  | none =>
    rw [rewritten_getElem?_eq_none (rewritten_getElem?_eq_none hl), rewritten_getElem?_eq_none hl]
  | some line =>
    have hc := classes_getElem?_of_line hl
    obtain ⟨line₁, hl₁, -, hread⟩ := rewritten_line hfaith.located hl hc
    rw [hl₁, rewritten_getElem? sel ac hl₁ (rewritten_classes hfaith.located hl₁)]
    congr 1
    split_ifs with hsel
    · rcases hread with rfl | ⟨r, hj, he, hr, hscan⟩
      · -- the first run left the text as it was, and the second reads it alike
        obtain ⟨helig, hrw⟩ := classify_alike (rewritten_levels_alike hac hfaith hapi i)
          (scanLine (stateBefore lines i) line₁.toList).1 line₁
        have hsame := (rewritten_getElem? (b := ofLines lines) sel ac hl hc).symm.trans hl₁
        rw [if_pos ⟨hsel.1, helig ▸ hsel.2⟩, Option.some.injEq] at hsame
        rw [hrw, hsame]
      · -- the first run edited the line to its target
        have hf := hfaith i hj line _ r hl hc he hr
        have hchange := change_of_classes_getElem? hl hc
        rw [hf.openRule] at hscan
        exact rewriteLine_edited_again hac hchange (hf.modifierIndex_le hchange) hr
          (hplain i hj line _ r hl hc he hr)
          (fun ⟨x, hx⟩ => hsetter x hx i hj line _ r hl hc he hr) hscan _
    · rfl

/-- A member taken out of the API, and then again: the second time changes nothing. -/
theorem member_removed_from_api_again :
    (Buffer.ofLines ((Buffer.ofLines ["struct S \x7b", "public var x = 1", "\x7d"]).rewritten [1]
        .removeAPI)).rewritten [1] .removeAPI =
      (Buffer.ofLines ["struct S \x7b", "public var x = 1", "\x7d"]).rewritten [1] .removeAPI := by
  have hT : (scanLine (stateBefore ["struct S \x7b", "public var x = 1", "\x7d"] 1)
      "public var x = 1".toList).1 =
        [.keyword .public, .keyword .var, .identifier "x", .punct .equals, .identifier "1"] := by
    cbv
  have hc : (Buffer.ofLines ["struct S \x7b", "public var x = 1", "\x7d"]).classes[1]? =
      some ⟨.substitute "public", true, .public⟩ := by cbv
  refine rewritten_again_unchanged rfl (Buffer.forRewritten_singleton rfl hc fun r hr => ?_)
    (Buffer.forRewritten_singleton rfl hc fun _ _ _ => ?_) (fun _ h => by cases h) fun h => by cases h
  · cases hr
    refine ⟨⟨by cbv, by cbv, ⟨by rw [hT]; decide, [], " var x = 1".toList, by cbv,
      Plain.plainCode (by decide), rfl, rfl⟩⟩, by cbv, fun _ => ?_, fun _ h => by cases h⟩
    -- `public` is the line's first token
    rw [hT]
    exact Token.apart_nil_left _
  · -- `internal` is written as nothing, and the line states one plain modifier
    rw [hT]
    decide

/-- Five buffers that a second run of the same change rewrites further. Written after the
declaration, `open` is read as a name, so the line states no level; of two plain modifiers a fixed
level written as nothing, and `removeAPI`, remove only the first, and of two setter modifiers a
fixed level removes only the first; and `public` written before a closing brace is passed on to the
structure opened after it, where the private structure around passed on `private`. -/
theorem rewritten_again_differs :
    ((Buffer.ofLines ["func f() private"]).rewritten [0] (.setLevel .open) = ["func f() open"] ∧
      (Buffer.ofLines ["func f() open"]).rewritten [0] (.setLevel .open) =
        ["open func f() open"]) ∧
    ((Buffer.ofLines ["private fileprivate func f()"]).rewritten [0] (.setLevel .internal) =
        ["fileprivate func f()"] ∧
      (Buffer.ofLines ["fileprivate func f()"]).rewritten [0] (.setLevel .internal) =
        ["func f()"]) ∧
    ((Buffer.ofLines ["public public func f()"]).rewritten [0] .removeAPI = ["public func f()"] ∧
      (Buffer.ofLines ["public func f()"]).rewritten [0] .removeAPI = ["func f()"]) ∧
    ((Buffer.ofLines ["private(set) fileprivate(set) var a"]).rewritten [0] (.setLevel .public) =
        ["public fileprivate(set) var a"] ∧
      (Buffer.ofLines ["public fileprivate(set) var a"]).rewritten [0] (.setLevel .public) =
        ["public var a"]) ∧
    ((Buffer.ofLines ["private struct O \x7b", "public struct S \x7b",
        "struct A \x7b\x7d \x7d struct B \x7b", "func f()", "\x7d", "\x7d"]).rewritten [2, 3] .makeAPI =
        ["private struct O \x7b", "public struct S \x7b", "public struct A \x7b\x7d \x7d struct B \x7b",
          "func f()", "\x7d", "\x7d"] ∧
      (Buffer.ofLines ["private struct O \x7b", "public struct S \x7b",
        "public struct A \x7b\x7d \x7d struct B \x7b", "func f()", "\x7d", "\x7d"]).rewritten [2, 3]
          .makeAPI =
        ["private struct O \x7b", "public struct S \x7b", "public struct A \x7b\x7d \x7d struct B \x7b",
          "public func f()", "\x7d", "\x7d"]) :=
  ⟨⟨by cbv, by cbv⟩, ⟨by cbv, by cbv⟩, ⟨by cbv, by cbv⟩, ⟨by cbv, by cbv⟩, by cbv, by cbv⟩

end SwiftAccess
