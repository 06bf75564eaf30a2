import SwiftAccess.Access

/-!
# Resolving a change against a declaration's level

A relative change moves a declaration one step along the order of levels (`AccessChange.step`):
`increase` lifts `private` and `fileprivate` to `internal` and `internal` to `public`, `decrease`
walks down from `open` to `private`, and the API changes move only between `internal` and
`public`. A fixed level always applies. `AccessChange.resolve` turns the step into a
`Resolution`: the target level and the text that replaces the modifier.

A setter modifier such as `private(set)` follows its property (`AccessChange.resolveSetter`): it
moves by the same step, never above `internal`, and disappears once it would be as visible as the
property itself, since a setter as visible as its property says nothing.
-/

namespace SwiftAccess

/-- What a change does to one declaration: its new level and the modifier text written for it. -/
structure Resolution where
  target : Access
  replacement : String
  deriving DecidableEq, Repr

/-- What happens to a setter modifier when its property changes level. -/
inductive SetterEdit where
  | keep
  | remove
  | replace (level : Access)
  deriving DecidableEq, Repr, Inhabited

namespace AccessChange

/-- One step of a relative change from the current level; `none` where the change does not
apply. A fixed level is not a step. -/
def step : AccessChange → Access → Option Access
  | .setLevel _, _ => none
  | .makeAPI, .internal | .makeAPI, .implicit => some .«public»
  | .makeAPI, _ => none
  | .removeAPI, .«public» => some .internal
  | .removeAPI, _ => none
  | .increase, .«private» | .increase, .fileprivate => some .internal
  | .increase, .internal | .increase, .implicit => some .«public»
  | .increase, _ => none
  | .decrease, .«open» => some .«public»
  | .decrease, .«public» => some .internal
  | .decrease, .internal | .decrease, .implicit | .decrease, .fileprivate => some .«private»
  | .decrease, .«private» => none

/-- The level a change gives a declaration that is now at `current`, with its modifier text. -/
def resolve (change : AccessChange) (current : Access) : Option Resolution :=
  let target := match change with
    | .setLevel level => some level
    | relative => relative.step current
  target.map fun t => { target := t, replacement := t.replacement }

/-- The edit of a setter modifier at level `setter` on a property whose new level is `declared`.
A fixed level drops every setter modifier. -/
def resolveSetter (change : AccessChange) (setter declared : Access) : SetterEdit :=
  match change with
  | .setLevel _ => .remove
  | _ =>
    let stepped := ((change.step setter).getD setter).clampToInternal
    if stepped.isAtLeast declared.clampToInternal then .remove
    else if stepped.rank ≠ setter.rank then .replace stepped
    else .keep

@[simp] theorem resolve_setLevel (level current : Access) :
    (setLevel level).resolve current = some ⟨level, level.replacement⟩ := rfl

theorem increase_step_rank {a b : Access} (h : increase.step a = some b) : a.rank < b.rank := by
  cases a <;> simp [step] at h <;> subst h <;> decide

theorem decrease_step_rank {a b : Access} (h : decrease.step a = some b) : b.rank < a.rank := by
  cases a <;> simp [step] at h <;> subst h <;> decide

end AccessChange

end SwiftAccess
