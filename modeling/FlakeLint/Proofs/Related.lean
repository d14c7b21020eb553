-- SUMMARY: Optional values and lists whose members are related one by one.
import Mathlib.Data.List.Forall2

/-!
# Related values

Two lists whose members are related one by one look the same to a question that
related members answer alike. The same holds for optional values.
-/

namespace FlakeLint

variable {α α' β β' γ : Type} {R : α → α' → Prop} {S : β → β' → Prop}

/-! ## Optional values -/

section

variable {a : Option α} {a' : Option α'}

theorem rel_bind (h : Option.Rel R a a') {f : α → Option β} {f' : α' → Option β'}
    (hf : ∀ x x', R x x' → Option.Rel S (f x) (f' x')) :
    Option.Rel S (a.bind f) (a'.bind f') := by
  cases h with
  | none => exact .none
  | some h => exact hf _ _ h

theorem rel_map (h : Option.Rel R a a') {f : α → β} {f' : α' → β'}
    (hf : ∀ x x', R x x' → S (f x) (f' x')) : Option.Rel S (a.map f) (a'.map f') := by
  cases h with
  | none => exact .none
  | some h => exact .some (hf _ _ h)

theorem rel_filter (h : Option.Rel R a a') {p : α → Bool} {p' : α' → Bool}
    (hp : ∀ x x', R x x' → p' x' = p x) : Option.Rel R (a.filter p) (a'.filter p') := by
  cases h with
  | none => exact .none
  | @some x x' h =>
    rw [Option.filter_some, Option.filter_some, hp x x' h]
    cases p x with
    | true => exact .some h
    | false => exact .none

theorem bind_eq_of_rel (h : Option.Rel R a a') {f : α → Option β} {f' : α' → Option β}
    (hf : ∀ x x', R x x' → f' x' = f x) : a'.bind f' = a.bind f := by
  cases h with
  | none => rfl
  | some h => exact hf _ _ h

theorem map_eq_of_rel (h : Option.Rel R a a') {f : α → β} {f' : α' → β}
    (hf : ∀ x x', R x x' → f' x' = f x) : a'.map f' = a.map f := by
  cases h with
  | none => rfl
  | some h => exact congrArg some (hf _ _ h)

theorem any_eq_of_rel (h : Option.Rel R a a') {p : α → Bool} {p' : α' → Bool}
    (hp : ∀ x x', R x x' → p' x' = p x) : a'.any p' = a.any p := by
  cases h with
  | none => rfl
  | some h => exact hp _ _ h

end

/-! ## Lists -/

section

variable {xs : List α} {xs' : List α'}

theorem rel_head? (h : List.Forall₂ R xs xs') : Option.Rel R xs.head? xs'.head? := by
  cases h with
  | nil => exact .none
  | cons h _ => exact .some h

theorem forall₂_filter (h : List.Forall₂ R xs xs') {p : α → Bool} {p' : α' → Bool}
    (hp : ∀ x x', R x x' → p' x' = p x) : List.Forall₂ R (xs.filter p) (xs'.filter p') :=
  List.rel_filter (fun x x' hx => by simp [hp x x' hx]) h

theorem rel_find? (h : List.Forall₂ R xs xs') {p : α → Bool} {p' : α' → Bool}
    (hp : ∀ x x', R x x' → p' x' = p x) : Option.Rel R (xs.find? p) (xs'.find? p') := by
  rw [← List.head?_filter, ← List.head?_filter]
  exact rel_head? (forall₂_filter h hp)

theorem any_eq_of_forall₂ (h : List.Forall₂ R xs xs') {p : α → Bool} {p' : α' → Bool}
    (hp : ∀ x x', R x x' → p' x' = p x) : xs'.any p' = xs.any p := by
  induction h with
  | nil => rfl
  | cons hx _ ih => rw [List.any_cons, List.any_cons, hp _ _ hx, ih]

theorem map_eq_of_forall₂ (h : List.Forall₂ R xs xs') {f : α → β} {f' : α' → β}
    (hf : ∀ x x', R x x' → f' x' = f x) : xs'.map f' = xs.map f := by
  induction h with
  | nil => rfl
  | cons hx _ ih => rw [List.map_cons, List.map_cons, hf _ _ hx, ih]

theorem filterMap_eq_of_forall₂ (h : List.Forall₂ R xs xs') {f : α → Option β}
    {f' : α' → Option β} (hf : ∀ x x', R x x' → f' x' = f x) :
    xs'.filterMap f' = xs.filterMap f := by
  induction h with
  | nil => rfl
  | cons hx _ ih => rw [List.filterMap_cons, List.filterMap_cons, hf _ _ hx, ih]

theorem flatMap_eq_of_forall₂ (h : List.Forall₂ R xs xs') {f : α → List β} {f' : α' → List β}
    (hf : ∀ x x', R x x' → f' x' = f x) : xs'.flatMap f' = xs.flatMap f := by
  induction h with
  | nil => rfl
  | cons hx _ ih => rw [List.flatMap_cons, List.flatMap_cons, hf _ _ hx, ih]

end

end FlakeLint
