import Mathlib.Data.Option.Basic
import Mathlib.Logic.Basic

/-!
# Paints

A paint says which places it changes and what they become: where it is `some v` the place becomes `v`, elsewhere it stays. Paints are
put over pictures and over each other, and what a paint leaves does not depend on what was under it.
-/

namespace Lib

variable {P V : Type}

/-- A partial picture. -/
def Paint (P V : Type) : Type := P → Option V

namespace Paint

/-- The picture `f` under the paint `g`. -/
def atop (g : Paint P V) (f : P → V) : P → V := fun p => (g p).getD (f p)

/-- No paint. -/
def clear : Paint P V := fun _ => none

/-- One paint, and then another over it. -/
def andThen (g h : Paint P V) : Paint P V := fun p => (h p).or (g p)

/-- The places `D`, painted as in `f`. -/
def fill (D : P → Prop) [DecidablePred D] (f : P → V) : Paint P V := fun p => if D p then some (f p) else none

/-- The paint changes only places of `D`. -/
def Within (g : Paint P V) (D : P → Prop) : Prop := ∀ p, ¬D p → g p = none

@[simp] theorem atop_clear (f : P → V) : (clear : Paint P V).atop f = f := rfl

theorem atop_andThen (g h : Paint P V) (f : P → V) : (g.andThen h).atop f = h.atop (g.atop f) := by
  funext p
  unfold atop andThen
  cases h p <;> rfl

theorem atop_fill_apply (D : P → Prop) [DecidablePred D] (v f : P → V) (p : P) :
    (fill D v).atop f p = if D p then v p else f p := by
  unfold atop fill
  split
  · rfl
  · rfl

theorem atop_fill_of_mem {D : P → Prop} [DecidablePred D] {v f : P → V} {p : P} (h : D p) : (fill D v).atop f p = v p := by
  simp [atop, fill, h]

theorem atop_of_not_mem {D : P → Prop} {g : Paint P V} (hg : g.Within D) {f : P → V} {p : P} (h : ¬D p) : g.atop f p = f p := by
  simp [atop, hg p h]

theorem within_clear (D : P → Prop) : (clear : Paint P V).Within D := fun _ _ => rfl

theorem within_fill (D : P → Prop) [DecidablePred D] (f : P → V) : (fill D f).Within D := by
  intro p hp
  simp [fill, hp]

theorem Within.andThen {D : P → Prop} {g h : Paint P V} (hg : g.Within D) (hh : h.Within D) : (g.andThen h).Within D := by
  intro p hp
  simp [Paint.andThen, hg p hp, hh p hp]

theorem Within.mono {D E : P → Prop} {g : Paint P V} (hg : g.Within D) (hsub : ∀ p, D p → E p) : g.Within E :=
  fun p hp => hg p (fun h => hp (hsub p h))

/-- Redrawing: pictures that agree outside `D` are equal once `D` is filled, whatever is then painted. -/
theorem atop_fill_congr {D : P → Prop} [DecidablePred D] {f f' v : P → V} (h : ∀ p, ¬D p → f p = f' p) :
    (fill D v).atop f = (fill D v).atop f' := by
  funext p
  by_cases hp : D p
  · rw [atop_fill_of_mem hp, atop_fill_of_mem hp]
  · rw [atop_of_not_mem (within_fill D v) hp, atop_of_not_mem (within_fill D v) hp, h p hp]

/-- Filling `D` as it was changes nothing. -/
theorem atop_fill_self {D : P → Prop} [DecidablePred D] {f v : P → V} (h : ∀ p, D p → f p = v p) : (fill D v).atop f = f := by
  funext p
  by_cases hp : D p
  · rw [atop_fill_of_mem hp, h p hp]
  · rw [atop_of_not_mem (within_fill D v) hp]

end Paint

end Lib
