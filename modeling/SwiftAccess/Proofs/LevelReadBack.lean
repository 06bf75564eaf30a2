import SwiftAccess.Proofs.RewriteAgain

/-!
# The level a rewritten line reads back at

A rewritten buffer is classified again from the top, so the level a line has afterwards is read
back from its text: the level it states, or the level its scope gives members
(`Buffer.rewritten_current`). Main statements:

* `rewritten_step_moves_current`: raising the selected lines one step never lowers the level any
  line reads back at, and lowering them one step never raises it, each under its own conditions
  (`Buffer.increase_current_rank_le`, `Buffer.decrease_current_rank_le`);
* `rewritten_setter_below_level`: a fixed level leaves no setter modifier on a line, and any other
  change leaves only a setter modifier strictly below the level it gave the property, clamped to
  `internal`, and strictly below the level the line reads back at where that level is written.

Both read the rewritten line through the relexing of `Buffer.rewritten_tokens`. For the relative
changes the scopes compare level by level (`Scope.Levels`) in the direction of the step: a line
that `decrease` rewrites passes on at most what it passed on before, and one that `increase`
rewrites at least, except where `fileprivate`, raised to `internal` and so written as nothing,
hands its scopes over to a private scope around (`Buffer.FileprivateOutsidePrivate`). The setter
bound is the resolver's own: it compares the stepped setter with the property's new level clamped
to `internal`, which is the level read back only where that level is written; where it is written
as nothing, the line reads back at its scope's member level, which may be lower
(`rewritten_setter_at_level`).
-/

namespace SwiftAccess

open Lexer

namespace Access

theorem rank_ge (a : Access) : -2 ≤ a.rank := by
  cases a <;> decide

theorem rank_ge_of_ne_private {a : Access} (h : a ≠ .«private») : -1 ≤ a.rank := by
  cases a <;> simp_all [rank]

/-- The level a written modifier states is the level it was written for. -/
theorem access?_of_modifier? {a : Access} {k : Keyword} (h : a.modifier? = some k) :
    k.access? = some a := by
  cases a <;> simp [modifier?] at h <;> subst h <;> rfl

/-- A setter modifier written for a level states a level of the same rank. -/
theorem rank_of_setterModifier? {x a : Access} {k : Keyword} (h : x.setterModifier? = some k)
    (hk : k.setterAccess? = some a) : a.rank = x.rank := by
  cases x <;> simp [setterModifier?] at h <;> subst h <;> simp [Keyword.setterAccess?] at hk <;>
    subst hk <;> rfl

theorem setterModifier?_isSome {x : Access} (h : x.rank ≤ 0) : x.setterModifier?.isSome := by
  cases x <;> simp_all [rank, setterModifier?]

end Access

namespace AccessChange

/-- Whether a change sets a fixed level. -/
def isSetLevel : AccessChange → Bool
  | .setLevel _ => true
  | _ => false

/-- A relative change resolves a level to the one its step reaches. -/
theorem step_of_resolve {ac : AccessChange} (hac : ac.isSetLevel = false) {x : Access}
    {r : Resolution} (h : ac.resolve x = some r) : ac.step x = some r.target := by
  cases ac with
  | setLevel _ => cases hac
  | _ =>
    obtain ⟨t, ht, rfl⟩ := Option.map_eq_some_iff.1 h
    exact ht

theorem resolveSetter_of_isSetLevel {ac : AccessChange} (hac : ac.isSetLevel = false)
    (s d : Access) :
    ac.resolveSetter s d =
      if ((ac.step s).getD s).clampToInternal.isAtLeast d.clampToInternal then .remove
      else if ((ac.step s).getD s).clampToInternal.rank ≠ s.rank then
        .replace ((ac.step s).getD s).clampToInternal
      else .keep := by
  cases ac with
  | setLevel _ => cases hac
  | _ => rfl

/-- Of a setter modifier at `s`, a change other than a fixed level leaves a setter modifier
strictly less visible than the property's new level `d`, clamped to `internal`: it removes the
modifier where the stepped setter would reach that level. -/
theorem resolveSetter_rank_lt {ac : AccessChange} (hac : ac.isSetLevel = false) {s d : Access}
    {sk : Keyword} (hsk : sk.setterAccess? = some s) {k : Keyword} {a : Access}
    (ht : Token.keyword k ∈ (ac.resolveSetter s d).tokenFor (.keyword sk))
    (hk : k.setterAccess? = some a) : a.rank < d.clampToInternal.rank := by
  rw [resolveSetter_of_isSetLevel hac] at ht
  split_ifs at ht with hat hne
  · simp [SetterEdit.tokenFor] at ht
  · -- the setter modifier is replaced by the stepped level's
    have hlt : ((ac.step s).getD s).clampToInternal.rank < d.clampToInternal.rank := by
      simpa [Access.isAtLeast] using hat
    obtain ⟨k', hk'⟩ := Option.isSome_iff_exists.1
      (Access.setterModifier?_isSome (Access.clampToInternal_rank_le ((ac.step s).getD s)))
    simp only [SetterEdit.tokenFor, hk', Option.map_some, Option.getD_some, Option.mem_def,
      Option.some.injEq, Token.keyword.injEq] at ht
    subst ht
    rw [Access.rank_of_setterModifier? hk' hk]
    exact hlt
  · -- the setter modifier is kept, at the stepped level's rank
    have hlt : ((ac.step s).getD s).clampToInternal.rank < d.clampToInternal.rank := by
      simpa [Access.isAtLeast] using hat
    simp only [SetterEdit.tokenFor, Option.mem_def, Option.some.injEq, Token.keyword.injEq] at ht
    subst ht
    rw [hsk, Option.some.injEq] at hk
    subst hk
    rw [← not_not (a := _ = _).mp hne]
    exact hlt

/-- What `increase` writes on a line keeps the levels passed on at least as high, where a line
stating `fileprivate` opens a scope only where members are not `private`. -/
theorem pushOK_increase {cur t x : Access} {a : Option Access}
    (ha : a = some cur ∨ a = none) (hstep : increase.step cur = some t)
    (hfile : a = some .fileprivate → x ≠ .«private») :
    Scope.PushOK (fun x y => x.rank ≤ y.rank) a (t.modifier?.bind Keyword.access?) x := by
  intro y hy hxy
  rcases ha with rfl | rfl
  · cases cur <;> simp [step] at hstep <;> subst hstep
    · exact Access.rank_ge y
    · exact (Access.rank_ge_of_ne_private (hfile rfl)).trans hxy
    · exact Int.le_refl 0
    · exact Int.le_refl 0
  · cases cur <;> simp [step] at hstep <;> subst hstep
    · exact hxy
    · exact hxy
    · exact hxy.trans hy
    · exact hxy.trans hy

/-- What `decrease` writes on a line keeps the levels passed on at most as high. -/
theorem pushOK_decrease {cur t x : Access} {a : Option Access}
    (ha : a = some cur ∨ (a = none ∧ cur.rank ≤ 0)) (hstep : decrease.step cur = some t) :
    Scope.PushOK (fun x y => y.rank ≤ x.rank) a (t.modifier?.bind Keyword.access?) x := by
  intro y hy _
  rcases ha with rfl | ⟨rfl, hcur⟩
  · cases cur <;> simp [step] at hstep <;> subst hstep
    · exact Access.rank_ge _
    · exact Access.rank_ge _
    · exact Access.rank_ge _
    · exact hy
    · exact le_refl _
  · -- a line stating no level is at its member level, at most `internal`
    cases cur <;> simp [step] at hstep <;> subst hstep
    · exact Access.rank_ge _
    · exact Access.rank_ge _
    · exact Access.rank_ge _
    · exact absurd hcur (by decide)
    · exact absurd hcur (by decide)

/-- A line raised from `cur` reads back at least at `cur`: at the level written, or at the member
level `m` where `internal` is written as nothing, which is above `private` and, raised from
`fileprivate`, must be at least `fileprivate`. -/
theorem increase_reads_back {cur t m : Access} (hstep : increase.step cur = some t)
    (hm : cur = .fileprivate → -1 ≤ m.rank) :
    cur.rank ≤ ((t.modifier?.bind Keyword.access?).getD m).rank := by
  cases cur <;> simp [step] at hstep <;> subst hstep
  · exact Access.rank_ge m
  · exact hm rfl
  · exact (by decide : (0 : Int) ≤ 1)
  · exact (by decide : (0 : Int) ≤ 1)

/-- A line lowered from `cur` reads back at most at `cur`: at the level written, or at the member
level `m`, at most `internal`, where `internal` is written as nothing. -/
theorem decrease_reads_back {cur t m : Access} (hstep : decrease.step cur = some t)
    (hm : m.rank ≤ 0) : ((t.modifier?.bind Keyword.access?).getD m).rank ≤ cur.rank := by
  cases cur <;> simp [step] at hstep <;> subst hstep
  · exact (by decide : (-2 : Int) ≤ -1)
  · exact (by decide : (-2 : Int) ≤ 0)
  · exact (by decide : (-2 : Int) ≤ 0)
  · exact hm.trans (by decide)
  · exact (by decide : (1 : Int) ≤ 2)

end AccessChange

/-- A line's level is the one it states, or else its scope's member level. -/
theorem classify_current (s : Scope) (T : List Token) :
    statedAccess? T = some (classify s T).1.current ∨
      (statedAccess? T = none ∧ (classify s T).1.current = s.memberLevel) := by
  show statedAccess? T = some ((statedAccess? T).getD s.memberLevel) ∨
    (statedAccess? T = none ∧ (statedAccess? T).getD s.memberLevel = s.memberLevel)
  cases statedAccess? T with
  | some a => exact .inl rfl
  | none => exact .inr ⟨rfl, rfl⟩

namespace Buffer

variable {lines : List String} {sel : List Nat} {ac : AccessChange}

/-- Every eligible selected line that states `fileprivate` starts, and opens each scope it opens,
where members are not `private`. -/
def FileprivateOutsidePrivate (lines : List String) (sel : List Nat) : Prop :=
  ForRewritten lines sel .increase fun j line _ _ =>
    statedAccess? (scanLine (stateBefore lines j) line.toList).1 = some .fileprivate →
      (scopeAfter {} (tokensOf lines) j).memberLevel ≠ .«private» ∧
        Scope.OpensWhere (fun u => u.memberLevel ≠ .«private») (scopeAfter {} (tokensOf lines) j)
          none none (scanLine (stateBefore lines j) line.toList).1

/-- Raised faithfully, a buffer's scopes pass on levels at least as high as before, where a line
stating `fileprivate` stands and opens scopes only where members are not `private`. -/
theorem rewritten_levels_increase (h : RewritesFaithful lines sel .increase)
    (hfile : FileprivateOutsidePrivate lines sel) (j : Nat) :
    Scope.Levels (fun x y => x.rank ≤ y.rank) (scopeAfter {} (tokensOf lines) j)
      (scopeAfter {} (tokensOf ((ofLines lines).rewritten sel .increase)) j) := by
  refine rewritten_levels (R := fun x y => x.rank ≤ y.rank) (fun x => le_refl x.rank) h
    (fun j hj line c r hl hc he hr _ => ?_) j
  have hstep := AccessChange.step_of_resolve rfl hr
  rw [eq_classify_of_getElem? hl hc] at hstep
  rcases classify_current (scopeAfter {} (tokensOf lines) j)
    (scanLine (stateBefore lines j) line.toList).1 with hst | ⟨hst, -⟩
  · by_cases hfp : statedAccess? (scanLine (stateBefore lines j) line.toList).1 = some .fileprivate
    · -- a line stating `fileprivate` opens its scopes where members are not `private`
      refine ((hfile j hj line c r hl hc he hr hfp).2.mono fun u hu =>
        AccessChange.pushOK_increase (.inl hst) hstep fun _ => hu)
    · exact Scope.opensWhere_of_forall (fun u => AccessChange.pushOK_increase (.inl hst) hstep
        fun h' => absurd h' hfp) _ _ _ _
  · exact Scope.opensWhere_of_forall (fun u => AccessChange.pushOK_increase (.inr hst) hstep
      fun h' => by rw [hst] at h'; cases h') _ _ _ _

/-- Lowered faithfully, a buffer's scopes pass on levels at most as high as before. -/
theorem rewritten_levels_decrease (h : RewritesFaithful lines sel .decrease) (j : Nat) :
    Scope.Levels (fun x y => y.rank ≤ x.rank) (scopeAfter {} (tokensOf lines) j)
      (scopeAfter {} (tokensOf ((ofLines lines).rewritten sel .decrease)) j) := by
  refine rewritten_levels (R := fun x y => y.rank ≤ x.rank) (fun x => le_refl x.rank) h
    (fun j _ line c r hl hc _ hr _ => ?_) j
  have hstep := AccessChange.step_of_resolve rfl hr
  rw [eq_classify_of_getElem? hl hc] at hstep
  -- a line that states no level is at its scope's member level, at most `internal`
  have ha : statedAccess? (scanLine (stateBefore lines j) line.toList).1 =
        some (classify (scopeAfter {} (tokensOf lines) j)
          (scanLine (stateBefore lines j) line.toList).1).1.current ∨
      (statedAccess? (scanLine (stateBefore lines j) line.toList).1 = none ∧
        (classify (scopeAfter {} (tokensOf lines) j)
          (scanLine (stateBefore lines j) line.toList).1).1.current.rank ≤ 0) := by
    rcases classify_current (scopeAfter {} (tokensOf lines) j)
      (scanLine (stateBefore lines j) line.toList).1 with hst | ⟨hst, hm⟩
    · exact .inl hst
    · exact .inr ⟨hst, hm ▸ Scope.memberLevel_rank_le _⟩
  exact Scope.opensWhere_of_forall (fun _ => AccessChange.pushOK_decrease ha hstep) _ _ _ _

/-- A line of a faithfully rewritten buffer reads back at the level it states, or else its new
scope's member level, where the change left its tokens as they were; where the change edited
them, at the level written, or at the new scope's member level where that level is written as
nothing on a line that stated one plain modifier. -/
theorem rewritten_current (h : RewritesFaithful lines sel ac)
    (hplain : RewritesAtMostOne lines sel ac Token.isAccessModifier) {i : Nat} {line : String}
    {c c₁ : Classification} (hl : lines[i]? = some line) (hc : (ofLines lines).classes[i]? = some c)
    (hc₁ : (ofLines ((ofLines lines).rewritten sel ac)).classes[i]? = some c₁) :
    c₁.current = (statedAccess? (scanLine (stateBefore lines i) line.toList).1).getD
        (scopeAfter {} (tokensOf ((ofLines lines).rewritten sel ac)) i).memberLevel ∨
      ∃ r, i ∈ sel ∧ c.eligible = true ∧ ac.resolve c.current = some r ∧
        c₁.current = (r.target.modifier?.bind Keyword.access?).getD
          (scopeAfter {} (tokensOf ((ofLines lines).rewritten sel ac)) i).memberLevel := by
  obtain ⟨T₁, hT₁, hread⟩ := rewritten_tokens h hl hc
  have hcur : c₁.current = (statedAccess? T₁).getD
      (scopeAfter {} (tokensOf ((ofLines lines).rewritten sel ac)) i).memberLevel := by
    rw [classes_getElem?, hT₁, Option.map_some, Option.some.injEq] at hc₁
    rw [← hc₁]
    rfl
  rcases hread with rfl | ⟨r, hj, he, hr, rfl⟩
  · exact .inl hcur
  have hchange := change_of_classes_getElem? hl hc
  have hf := h i hj line c r hl hc he hr
  by_cases hne : c.change = .none
  · -- a line that takes no modifier is not edited
    rw [Classification.editOn_of_change_none hne] at hcur
    exact .inl hcur
  refine .inr ⟨r, hj, he, hr, ?_⟩
  rw [hcur]
  cases hk : r.target.modifier? with
  | some k =>
    rw [Classification.statedAccess?_editOn hchange hne (hf.modifierIndex_le hchange) hk]
    rfl
  | none =>
    rw [Classification.statedAccess?_editOn_of_none hchange (hf.modifierIndex_le hchange) hk
      (hplain i hj line c r hl hc he hr)]
    rfl

/-- A line the buffer classifies is one of its lines. -/
theorem exists_line_of_classes_getElem? {i : Nat} {c : Classification}
    (hc : (ofLines lines).classes[i]? = some c) : ∃ line, lines[i]? = some line := by
  cases hl : lines[i]? with
  | none =>
    rw [classes_getElem?, tokensOf_getElem?, hl] at hc
    cases hc
  | some line => exact ⟨line, rfl⟩

/-- Where a line's tokens stay, the level it reads back at follows its scope's member level: it
compares with its level before as the scopes the line is read in compare. -/
theorem current_of_kept {R : Access → Access → Prop} (hrefl : ∀ x, R x x) {i : Nat}
    {line : String} {c : Classification} {s₁ : Scope} (hl : lines[i]? = some line)
    (hc : (ofLines lines).classes[i]? = some c)
    (hlev : Scope.Levels R (scopeAfter {} (tokensOf lines) i) s₁) :
    R c.current ((statedAccess? (scanLine (stateBefore lines i) line.toList).1).getD
      s₁.memberLevel) := by
  rw [eq_classify_of_getElem? hl hc]
  show R ((statedAccess? _).getD _) _
  cases statedAccess? (scanLine (stateBefore lines i) line.toList).1 with
  | some a => exact hrefl a
  | none => exact hlev.memberLevel

/-- Raised faithfully, a line reads back at least at its level before, where every raised line
states at most one plain modifier and one stating `fileprivate` stands and opens scopes only where
members are not `private`. -/
theorem increase_current_rank_le (h : RewritesFaithful lines sel .increase)
    (hplain : RewritesAtMostOne lines sel .increase Token.isAccessModifier)
    (hfile : FileprivateOutsidePrivate lines sel) {i : Nat} {c c₁ : Classification}
    (hc : (ofLines lines).classes[i]? = some c)
    (hc₁ : (ofLines ((ofLines lines).rewritten sel .increase)).classes[i]? = some c₁) :
    c.current.rank ≤ c₁.current.rank := by
  obtain ⟨line, hl⟩ := exists_line_of_classes_getElem? hc
  have hlev := rewritten_levels_increase h hfile i
  rcases rewritten_current h hplain hl hc hc₁ with hcur | ⟨r, hj, he, hr, hcur⟩
  · rw [hcur]
    exact current_of_kept (R := fun x y => x.rank ≤ y.rank) (fun x => le_refl x.rank) hl hc hlev
  -- a line at `fileprivate` states it away from private members, or takes it from its scope
  have hfp : c.current = .fileprivate → -1 ≤
      (scopeAfter {} (tokensOf ((ofLines lines).rewritten sel .increase)) i).memberLevel.rank := by
    intro hcf
    refine le_trans ?_ hlev.memberLevel
    have hcls := eq_classify_of_getElem? hl hc
    rcases classify_current (scopeAfter {} (tokensOf lines) i)
      (scanLine (stateBefore lines i) line.toList).1 with hst | ⟨-, hm⟩
    · rw [← hcls, hcf] at hst
      exact Access.rank_ge_of_ne_private (hfile i hj line c r hl hc he hr hst).1
    · rw [← hcls, hcf] at hm
      rw [← hm]
      decide
  rw [hcur]
  exact AccessChange.increase_reads_back (AccessChange.step_of_resolve rfl hr) hfp

/-- Lowered faithfully, a line reads back at most at its level before, where every lowered line
states at most one plain modifier. -/
theorem decrease_current_rank_le (h : RewritesFaithful lines sel .decrease)
    (hplain : RewritesAtMostOne lines sel .decrease Token.isAccessModifier) {i : Nat}
    {c c₁ : Classification} (hc : (ofLines lines).classes[i]? = some c)
    (hc₁ : (ofLines ((ofLines lines).rewritten sel .decrease)).classes[i]? = some c₁) :
    c₁.current.rank ≤ c.current.rank := by
  obtain ⟨line, hl⟩ := exists_line_of_classes_getElem? hc
  have hlev := rewritten_levels_decrease h i
  rcases rewritten_current h hplain hl hc hc₁ with hcur | ⟨r, -, -, hr, hcur⟩
  · rw [hcur]
    exact current_of_kept (R := fun x y => y.rank ≤ x.rank) (fun x => le_refl x.rank) hl hc hlev
  rw [hcur]
  exact AccessChange.decrease_reads_back (AccessChange.step_of_resolve rfl hr)
    (Scope.memberLevel_rank_le _)

end Buffer

open Buffer in
/-- Raising the selected lines one step never lowers the level any line of the buffer reads back
at, where every line the step rewrites is rewritten faithfully and states at most one plain
modifier, and a line stating `fileprivate` stands and opens scopes only where members are not
`private`. Lowering them one step never raises it, where every line the step rewrites is rewritten
faithfully and states at most one plain modifier. -/
theorem rewritten_step_moves_current {lines : List String} {sel : List Nat} :
    (RewritesFaithful lines sel .increase →
      RewritesAtMostOne lines sel .increase Token.isAccessModifier →
      FileprivateOutsidePrivate lines sel →
      ∀ (i : Nat) (c : Classification), (ofLines lines).classes[i]? = some c →
        ∀ c₁ : Classification,
          (ofLines ((ofLines lines).rewritten sel .increase)).classes[i]? = some c₁ →
            c.current.rank ≤ c₁.current.rank) ∧
    (RewritesFaithful lines sel .decrease →
      RewritesAtMostOne lines sel .decrease Token.isAccessModifier →
      ∀ (i : Nat) (c : Classification), (ofLines lines).classes[i]? = some c →
        ∀ c₁ : Classification,
          (ofLines ((ofLines lines).rewritten sel .decrease)).classes[i]? = some c₁ →
            c₁.current.rank ≤ c.current.rank) :=
  ⟨fun hinc hplain hfile _ _ hc _ hc₁ => increase_current_rank_le hinc hplain hfile hc hc₁,
    fun hdec hplain _ _ hc _ hc₁ => decrease_current_rank_le hdec hplain hc hc₁⟩

open Buffer in
/-- A `fileprivate` member of a structure, raised and lowered: it reads back at least at
`fileprivate` raised, and at most at `fileprivate` lowered. -/
theorem fileprivate_member_raised_and_lowered :
    (ofLines ["struct S \x7b", "fileprivate let a = 1", "\x7d"]).classes[1]? =
        some ⟨.substitute "fileprivate", true, .fileprivate⟩ ∧
      (∀ c₁ : Classification, (ofLines ((ofLines ["struct S \x7b", "fileprivate let a = 1",
          "\x7d"]).rewritten [1] .increase)).classes[1]? = some c₁ →
        Access.fileprivate.rank ≤ c₁.current.rank) ∧
      (∀ c₁ : Classification, (ofLines ((ofLines ["struct S \x7b", "fileprivate let a = 1",
          "\x7d"]).rewritten [1] .decrease)).classes[1]? = some c₁ →
        c₁.current.rank ≤ Access.fileprivate.rank) := by
  have hc : (ofLines ["struct S \x7b", "fileprivate let a = 1", "\x7d"]).classes[1]? =
      some ⟨.substitute "fileprivate", true, .fileprivate⟩ := by cbv
  have hT : (scanLine (stateBefore ["struct S \x7b", "fileprivate let a = 1", "\x7d"] 1)
      "fileprivate let a = 1".toList).1 =
        [.keyword .fileprivate, .keyword .let, .identifier "a", .punct .equals, .identifier "1"] := by
    cbv
  have hsite : ∀ r : Resolution,
      Classification.Located (stateBefore ["struct S \x7b", "fileprivate let a = 1", "\x7d"] 1)
        "fileprivate let a = 1".toList ⟨.substitute "fileprivate", true, .fileprivate⟩ r := fun _ =>
    ⟨by cbv, by cbv, by
      rw [hT]
      exact ⟨by decide, [], " let a = 1".toList, by cbv, Plain.plainCode (by decide), rfl, rfl⟩⟩
  -- the line states one plain modifier, whichever way it is moved
  have hone : ∀ {ac : AccessChange}, RewritesAtMostOne ["struct S \x7b", "fileprivate let a = 1",
      "\x7d"] [1] ac Token.isAccessModifier :=
    forRewritten_singleton rfl hc fun _ _ => by
      rw [hT]
      decide
  refine ⟨hc, rewritten_step_moves_current.1 (forRewritten_singleton rfl hc fun r hr => ?_) hone
    (forRewritten_singleton rfl hc fun _ _ _ => ?_) 1 _ hc,
    rewritten_step_moves_current.2 (forRewritten_singleton rfl hc fun r hr => ?_) hone 1 _ hc⟩
  · cases hr
    refine ⟨hsite _, by cbv, fun _ => ?_, fun _ h => by cases h⟩
    -- `fileprivate` is the line's first token
    rw [hT]
    exact Token.apart_nil_left _
  · -- the structure gives its members `internal`
    constructor
    · cbv
      decide
    · cbv
      decide
  · cases hr
    exact ⟨hsite _, by cbv, fun h => (by cases h), fun _ h => by cases h⟩

open Buffer in
/-- Three buffers where a line reads back on the wrong side of a step. Raised to `internal`, which
is written as nothing, a `fileprivate` member of a private structure reads back at `private`, its
structure's member level. Raised from the first of two plain modifiers, a line reads back at the
second. Lowered, a `public` between two slashes leaves a comment that hides an opening brace, so a
later line of a private structure reads back at `internal`. -/
theorem rewritten_current_differs :
    ((ofLines ["private struct S \x7b", "fileprivate let a = 1", "\x7d"]).classes[1]? =
        some ⟨.substitute "fileprivate", true, .fileprivate⟩ ∧
      (ofLines ["private struct S \x7b", "fileprivate let a = 1", "\x7d"]).rewritten [1] .increase =
        ["private struct S \x7b", "let a = 1", "\x7d"] ∧
      (ofLines ["private struct S \x7b", "let a = 1", "\x7d"]).classes[1]? =
        some ⟨.insertBefore "let", true, .private⟩) ∧
    ((ofLines ["fileprivate private func f()"]).classes =
        [⟨.substitute "fileprivate", true, .fileprivate⟩] ∧
      (ofLines ["fileprivate private func f()"]).rewritten [0] .increase = ["private func f()"] ∧
      (ofLines ["private func f()"]).classes = [⟨.substitute "private", true, .private⟩]) ∧
    ((ofLines ["private struct O \x7b", "/public /struct S \x7b", "\x7d", "func f()", "\x7d"]).classes[3]? =
        some ⟨.insertBefore "func", true, .private⟩ ∧
      (ofLines ["private struct O \x7b", "/public /struct S \x7b", "\x7d", "func f()", "\x7d"]).rewritten
        [1, 3] .decrease = ["private struct O \x7b", "//struct S \x7b", "\x7d", "func f()", "\x7d"] ∧
      (ofLines ["private struct O \x7b", "//struct S \x7b", "\x7d", "func f()", "\x7d"]).classes[3]? =
        some ⟨.insertBefore "func", true, .internal⟩) :=
  ⟨⟨by cbv, by cbv, by cbv⟩, ⟨by cbv, by cbv, by cbv⟩, by cbv, by cbv, by cbv⟩

open Buffer in
/-- A fixed level leaves no setter modifier on a selected eligible line with one, and any other
change leaves only a setter modifier strictly below the level it gives the property, clamped to
`internal`, and strictly below the level the line reads back at where that level is written.
This holds where every line the change rewrites is located, and the contextual `open` rule reads
the line's edited tokens as before, and the line has at most one setter modifier. -/
theorem rewritten_setter_below_level {lines : List String} {sel : List Nat} {ac : AccessChange}
    (hloc : RewritesLocated lines sel ac) {i : Nat} (hi : i ∈ sel) {line : String}
    {c : Classification} {r : Resolution} {sp : Access}
    (hl : lines[i]? = some line) (hc : (ofLines lines).classes[i]? = some c)
    (he : c.eligible = true) (hset : c.change.setter? = some sp)
    (hr : ac.resolve c.current = some r)
    (hopen : demoteOpen (c.editTokens (stateBefore lines i) line.toList ac r) =
      c.editOn (stateBefore lines i) line.toList ac r (scanLine (stateBefore lines i) line.toList).1)
    (hone : (scanLine (stateBefore lines i) line.toList).1.countP Token.isSetterModifier ≤ 1) :
    ∃ T₁ c₁, (tokensOf ((ofLines lines).rewritten sel ac))[i]? = some T₁ ∧
      (ofLines ((ofLines lines).rewritten sel ac)).classes[i]? = some c₁ ∧
      (ac.isSetLevel = true → ∀ t ∈ T₁, t.isSetterModifier = false) ∧
      (ac.isSetLevel = false → ∀ k a, Token.keyword k ∈ T₁ → k.setterAccess? = some a →
        a.rank < r.target.clampToInternal.rank ∧ (r.replacement ≠ "" → a.rank < c₁.current.rank)) := by
  have hloc' := hloc i hi line c r hl hc he hr
  have hchange := change_of_classes_getElem? hl hc
  have hw := hloc'.modifierIndex_le hchange
  have hne : c.change ≠ .none := fun h => by rw [h] at hset; cases hset
  -- the line is rewritten, and reads back as its tokens edited
  have hl₁ : ((ofLines lines).rewritten sel ac)[i]? = some (rewriteLine line c ac) := by
    rw [rewritten_getElem? (b := ofLines lines) sel ac hl hc, if_pos ⟨hi, he⟩]
  have hT₁ : (tokensOf ((ofLines lines).rewritten sel ac))[i]? = some
      (c.editOn (stateBefore lines i) line.toList ac r (scanLine (stateBefore lines i) line.toList).1) := by
    rw [tokensOf_getElem?, hl₁, rewritten_stateBefore hloc, Option.map_some,
      scanLine_rewriteLine_setter hloc'.inComment hloc'.inString hchange hr hloc'.sited hset, hopen]
  refine ⟨_, _, hT₁, by rw [classes_getElem?, hT₁]; rfl, fun hac t ht => ?_, fun hac k a hk ha => ?_⟩
  · cases ac with
    | setLevel x => exact Classification.not_setter_editOn_setLevel hchange hw hone ht
    | _ => cases hac
  · have hks : (Token.keyword k).isSetterModifier = true := by
      simp [Token.isSetterModifier, Token.keyword?, Keyword.isSetter, ha]
    obtain ⟨sk, hsk, -, hmem⟩ := Classification.setter_mem_editOn hchange hw hone hk hks
    obtain ⟨s, hs⟩ : ∃ s, sk.setterAccess? = some s :=
      Option.isSome_iff_exists.1 (List.find?_some hsk : sk.isSetter = true)
    rw [hs, Option.getD_some] at hmem
    have hlt := AccessChange.resolveSetter_rank_lt hac hs hmem ha
    refine ⟨hlt, fun hrep => ?_⟩
    -- a written level is stated by the line, which reads back at it
    obtain ⟨k', hk'⟩ : ∃ k', r.target.modifier? = some k' := by
      rw [AccessChange.resolve_replacement hr, Access.replacement_eq] at hrep
      cases hm : r.target.modifier? with
      | some k' => exact ⟨k', rfl⟩
      | none => rw [hm] at hrep; exact absurd rfl hrep
    have hcur : (classify (scopeAfter {} (tokensOf ((ofLines lines).rewritten sel ac)) i)
        (c.editOn (stateBefore lines i) line.toList ac r
          (scanLine (stateBefore lines i) line.toList).1)).1.current = r.target := by
      show (statedAccess? _).getD _ = _
      rw [Classification.statedAccess?_editOn hchange hne hw hk', Access.access?_of_modifier? hk']
      rfl
    rw [hcur]
    exact lt_of_lt_of_le hlt (Access.minByRank_rank_le_left _ _)

open Buffer in
/-- A property of a structure with a `private(set)` setter, moved in and out of the API. Stating
`public` and taken out, it is left with no level written, and the setter modifier left is below
`internal`. Stating `internal` and made API, `public` is written, so the line reads back at
`public`, above the setter modifier left. -/
theorem setter_kept_below_new_level :
    (∃ T₁ c₁, (tokensOf ((ofLines ["struct S \x7b", "public private(set) var a = 1", "\x7d"]).rewritten
        [1] .removeAPI))[1]? = some T₁ ∧
      (ofLines ((ofLines ["struct S \x7b", "public private(set) var a = 1", "\x7d"]).rewritten [1]
        .removeAPI)).classes[1]? = some c₁ ∧
      (AccessChange.removeAPI.isSetLevel = true → ∀ t ∈ T₁, t.isSetterModifier = false) ∧
      (AccessChange.removeAPI.isSetLevel = false → ∀ k a, Token.keyword k ∈ T₁ →
        k.setterAccess? = some a →
          a.rank < Access.internal.clampToInternal.rank ∧ ("" ≠ "" → a.rank < c₁.current.rank))) ∧
    (∃ T₁ c₁, (tokensOf ((ofLines ["struct S \x7b", "internal private(set) var a = 1",
        "\x7d"]).rewritten [1] .makeAPI))[1]? = some T₁ ∧
      (ofLines ((ofLines ["struct S \x7b", "internal private(set) var a = 1", "\x7d"]).rewritten [1]
        .makeAPI)).classes[1]? = some c₁ ∧
      (AccessChange.makeAPI.isSetLevel = true → ∀ t ∈ T₁, t.isSetterModifier = false) ∧
      (AccessChange.makeAPI.isSetLevel = false → ∀ k a, Token.keyword k ∈ T₁ →
        k.setterAccess? = some a →
          a.rank < Access.public.clampToInternal.rank ∧
            ("public" ≠ "" → a.rank < c₁.current.rank))) := by
  have hc₁ : (ofLines ["struct S \x7b", "public private(set) var a = 1", "\x7d"]).classes[1]? =
      some ⟨.setterSubstitute .private "public", true, .public⟩ := by cbv
  have hc₂ : (ofLines ["struct S \x7b", "internal private(set) var a = 1", "\x7d"]).classes[1]? =
      some ⟨.setterSubstitute .private "internal", true, .internal⟩ := by cbv
  refine ⟨rewritten_setter_below_level (r := ⟨.internal, ""⟩)
    (forRewritten_singleton rfl hc₁ fun r hr => ?_) (by decide) rfl hc₁ rfl rfl rfl (by cbv) (by cbv),
    rewritten_setter_below_level (r := ⟨.public, "public"⟩)
    (forRewritten_singleton rfl hc₂ fun r hr => ?_) (by decide) rfl hc₂ rfl rfl rfl (by cbv) (by cbv)⟩
  · -- taken out of the API: both modifiers stand where the editor finds them
    cases hr
    exact ⟨by cbv, by cbv,
      ⟨by cbv, [], " private(set) var a = 1".toList, by cbv, Plain.plainCode (by decide), rfl, rfl⟩,
      fun _ => ⟨[], "private(set) var a = 1".toList, by cbv⟩,
      fun sp hsp => by
        cases hsp
        exact ⟨by cbv, "public ".toList, " var a = 1".toList, by cbv, Plain.plainCode (by decide),
          rfl, rfl⟩⟩
  · -- made API: likewise
    cases hr
    exact ⟨by cbv, by cbv,
      ⟨by cbv, [], " private(set) var a = 1".toList, by cbv, Plain.plainCode (by decide), rfl, rfl⟩,
      fun _ => ⟨[], "private(set) var a = 1".toList, by cbv⟩,
      fun sp hsp => by
        cases hsp
        exact ⟨by cbv, "internal ".toList, " var a = 1".toList, by cbv,
          Plain.plainCode (by decide), rfl, rfl⟩⟩

open Buffer in
/-- Two buffers where a setter modifier is left at its property's level. Lowered from `public` to
`internal`, which is written as nothing, a property of a private structure reads back at
`private`, its structure's member level, beside the `private(set)` that the resolver kept below
`internal`. And of two setter modifiers a fixed level removes only the first. -/
theorem rewritten_setter_at_level :
    ((ofLines ["private struct S \x7b", "public private(set) var a: Int", "\x7d"]).classes[1]? =
        some ⟨.setterSubstitute .private "public", true, .public⟩ ∧
      (ofLines ["private struct S \x7b", "public private(set) var a: Int", "\x7d"]).rewritten [1]
        .decrease = ["private struct S \x7b", "private(set) var a: Int", "\x7d"] ∧
      (ofLines ["private struct S \x7b", "private(set) var a: Int", "\x7d"]).classes[1]? =
        some ⟨.setterInsertAfter .private "private(set)", true, .private⟩) ∧
    ((ofLines ["private(set) fileprivate(set) var a"]).classes =
        [⟨.setterInsertAfter .private "private(set)", true, .internal⟩] ∧
      (ofLines ["private(set) fileprivate(set) var a"]).rewritten [0] (.setLevel .public) =
        ["public fileprivate(set) var a"] ∧
      tokensOf ["public fileprivate(set) var a"] =
        [[.keyword .public, .keyword .fileprivateSet, .keyword .var, .identifier "a"]]) :=
  ⟨⟨by cbv, by cbv, by cbv⟩, by cbv, by cbv, by cbv⟩

end SwiftAccess
