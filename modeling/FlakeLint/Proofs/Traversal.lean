-- SUMMARY: Laws of walks over lists whose steps may fail.
import Mathlib.Data.List.Basic

/-!
# Fallible traversals

A traversal stops at the first step that fails. Where every step that fails does
so for one and the same reason, the order of the steps does not matter: the
traversal fails exactly when some step does.
-/

namespace FlakeLint

variable {ε α β γ : Type}

/-! ## Steps that succeed -/

/-- What holds of the value of a computation holds of a value that it yields. -/
theorem exists_eq_ok_of_map_toOption {x : Except ε α} {f : α → β} {b : β}
    (h : x.toOption.map f = some b) : ∃ a, x = .ok a ∧ f a = b := by
  cases x with
  | error e => cases h
  | ok a => exact ⟨a, rfl, Option.some_inj.1 h⟩

/-- A computation in two parts yields what its second part makes of the result of its first part. -/
theorem exists_eq_ok_of_bind {x : Except ε α} {f : α → Except ε β} {b : β}
    (h : x >>= f = .ok b) : ∃ a, x = .ok a ∧ f a = .ok b := by
  cases x with
  | error e => cases h
  | ok a => exact ⟨a, rfl, h⟩

theorem mapM_eq_ok_map {f : α → Except ε β} {g : α → β} {xs : List α}
    (h : ∀ x ∈ xs, f x = .ok (g x)) : xs.mapM f = .ok (xs.map g) := by
  induction xs with
  | nil => rfl
  | cons x xs ih =>
    have hx := h x List.mem_cons_self
    have hxs := ih fun y hy => h y (List.mem_cons_of_mem x hy)
    rw [List.mapM_cons, hx, hxs]
    rfl

/-- A traversal whose steps all succeed yields the results of the steps, whatever they are known by. -/
theorem exists_mapM_eq_ok {f : α → Except ε β} {g : β → γ} {k : α → γ} {xs : List α}
    (h : ∀ x ∈ xs, ∃ y, f x = .ok y ∧ g y = k x) :
    ∃ ys, xs.mapM f = .ok ys ∧ ys.map g = xs.map k := by
  induction xs with
  | nil => exact ⟨[], rfl, rfl⟩
  | cons x xs ih =>
    rw [List.forall_mem_cons] at h
    obtain ⟨⟨y, hy, hsame⟩, hrest⟩ := h
    obtain ⟨ys, hys, hsames⟩ := ih hrest
    refine ⟨y :: ys, ?_, by simp [hsame, hsames]⟩
    simp [hy, hys, bind, Except.bind, pure, Except.pure]

theorem exists_eq_ok_of_mapM {f : α → Except ε β} {xs : List α} {ys : List β}
    (h : xs.mapM f = .ok ys) {x : α} (hx : x ∈ xs) : ∃ y, f x = .ok y := by
  induction xs generalizing ys with
  | nil => cases hx
  | cons first xs ih =>
    rw [List.mapM_cons] at h
    obtain ⟨y, hy, h⟩ := exists_eq_ok_of_bind h
    obtain ⟨others, hothers, -⟩ := exists_eq_ok_of_bind h
    rcases List.mem_cons.1 hx with rfl | hx
    · exact ⟨y, hy⟩
    · exact ih hothers hx

/-- A traversal that hands over each item with its result. -/
theorem mapM_paired {f : α → Except ε β} {xs : List α} {pairs : List (α × β)}
    (h : xs.mapM (fun x => do return (x, ← f x)) = .ok pairs) :
    pairs.map Prod.fst = xs ∧ ∀ pair ∈ pairs, f pair.1 = .ok pair.2 := by
  induction xs generalizing pairs with
  | nil =>
    cases h
    simp
  | cons x xs ih =>
    rw [List.mapM_cons] at h
    obtain ⟨pair, hpair, h⟩ := exists_eq_ok_of_bind h
    obtain ⟨y, hy, heq⟩ := exists_eq_ok_of_bind hpair
    obtain ⟨others, hothers, h⟩ := exists_eq_ok_of_bind h
    cases heq
    cases h
    obtain ⟨hitems, hresults⟩ := ih hothers
    exact ⟨by simp [hitems], List.forall_mem_cons.2 ⟨hy, hresults⟩⟩

private theorem filterAuxM_eq_ok {f : α → Except ε Bool} {p : α → Bool} {xs : List α}
    (h : ∀ x ∈ xs, f x = .ok (p x)) (kept : List α) :
    xs.filterAuxM f kept = .ok ((xs.filter p).reverse ++ kept) := by
  induction xs generalizing kept with
  | nil => rfl
  | cons x xs ih =>
    have hx := h x List.mem_cons_self
    have hxs := ih fun y hy => h y (List.mem_cons_of_mem x hy)
    unfold List.filterAuxM
    rw [hx, List.filter_cons]
    cases p x with
    | true =>
      refine (hxs (x :: kept)).trans ?_
      simp
    | false => exact hxs kept

theorem filterM_eq_ok_filter {f : α → Except ε Bool} {p : α → Bool} {xs : List α}
    (h : ∀ x ∈ xs, f x = .ok (p x)) : xs.filterM f = .ok (xs.filter p) := by
  unfold List.filterM
  rw [filterAuxM_eq_ok h []]
  simp [bind, Except.bind, pure, Except.pure]

/-- An invariant that every step keeps, and under which every step succeeds, holds at the end. -/
theorem foldlM_invariant {f : γ → α → Except ε γ} {P : γ → Prop} {xs : List α} {start : γ}
    (hstart : P start) (hstep : ∀ x ∈ xs, ∀ s, P s → ∃ s', f s x = .ok s' ∧ P s') :
    ∃ last, xs.foldlM f start = .ok last ∧ P last := by
  induction xs generalizing start with
  | nil => exact ⟨start, rfl, hstart⟩
  | cons x xs ih =>
    obtain ⟨s, hs, hP⟩ := hstep x List.mem_cons_self start hstart
    obtain ⟨last, hlast, hPlast⟩ := ih hP fun y hy => hstep y (List.mem_cons_of_mem x hy)
    refine ⟨last, ?_, hPlast⟩
    rw [List.foldlM_cons, hs]
    exact hlast

/-! ## Steps that fail for one reason -/

theorem guarded_bind (stopped : Bool) (e : ε) (a : α) (f : α → Except ε β) :
    ((if stopped then .error e else .ok a) >>= f) = if stopped then .error e else f a := by
  cases stopped <;> rfl

theorem mapM_eq_guarded {f : α → Except ε β} {bad : α → Bool} {g : α → β} {e : ε} {xs : List α}
    (h : ∀ x ∈ xs, f x = if bad x then .error e else .ok (g x)) :
    xs.mapM f = if xs.any bad then .error e else .ok (xs.map g) := by
  induction xs with
  | nil => rfl
  | cons x xs ih =>
    have hx := h x List.mem_cons_self
    have hxs := ih fun y hy => h y (List.mem_cons_of_mem x hy)
    rw [List.mapM_cons, hx, hxs, List.any_cons]
    cases bad x with
    | true => rfl
    | false => cases xs.any bad <;> rfl

/-- A search asks the items up to the first that answers yes, so only these can make it fail. -/
theorem anyM_eq_guarded {f : α → Except ε Bool} {bad p : α → Bool} {e : ε} {xs : List α}
    (h : ∀ x ∈ xs, f x = if bad x then .error e else .ok (p x)) :
    xs.anyM f =
      if (xs.takeWhile fun x => bad x || !p x).any bad then .error e else .ok (xs.any p) := by
  induction xs with
  | nil => rfl
  | cons x xs ih =>
    rw [List.forall_mem_cons] at h
    rw [List.anyM_cons, h.1, ih h.2, List.any_cons, List.takeWhile_cons]
    cases hbad : bad x with
    | true => simp [hbad, bind, Except.bind]
    | false => cases p x <;> simp [hbad, bind, Except.bind, pure, Except.pure]

private theorem filterAuxM_eq_guarded {f : α → Except ε Bool} {bad p : α → Bool} {e : ε}
    {xs : List α} (h : ∀ x ∈ xs, f x = if bad x then .error e else .ok (p x)) (kept : List α) :
    xs.filterAuxM f kept =
      if xs.any bad then .error e else .ok ((xs.filter p).reverse ++ kept) := by
  induction xs generalizing kept with
  | nil => rfl
  | cons x xs ih =>
    rw [List.forall_mem_cons] at h
    unfold List.filterAuxM
    rw [h.1, List.any_cons, List.filter_cons]
    cases bad x with
    | true => rfl
    | false => cases p x <;> simp [bind, Except.bind, ih h.2]

theorem filterM_eq_guarded {f : α → Except ε Bool} {bad p : α → Bool} {e : ε} {xs : List α}
    (h : ∀ x ∈ xs, f x = if bad x then .error e else .ok (p x)) :
    xs.filterM f = if xs.any bad then .error e else .ok (xs.filter p) := by
  unfold List.filterM
  rw [filterAuxM_eq_guarded h []]
  cases xs.any bad <;> simp [bind, Except.bind, pure, Except.pure]

/-! ## Steps that fail for different reasons -/

/-- Of the items of a list, the first that is stopped by anything is stopped by `e`. -/
inductive StopsFirst (stops : α → ε → Prop) (e : ε) : List α → Prop
  | head {x : α} {xs : List α} (hstop : stops x e) : StopsFirst stops e (x :: xs)
  | tail {x : α} {xs : List α} (hgo : ∀ e, ¬ stops x e) (hrest : StopsFirst stops e xs) :
      StopsFirst stops e (x :: xs)

theorem StopsFirst.exists_mem {stops : α → ε → Prop} {e : ε} {xs : List α}
    (h : StopsFirst stops e xs) : ∃ x ∈ xs, stops x e := by
  induction h with
  | head hstop => exact ⟨_, List.mem_cons_self, hstop⟩
  | tail hgo hrest ih =>
    obtain ⟨x, hx, hstop⟩ := ih
    exact ⟨x, List.mem_cons_of_mem _ hx, hstop⟩

/-- If something stops an item, something stops an item first. -/
theorem exists_stopsFirst {stops : α → ε → Prop} {x : α} {xs : List α} {e : ε} (hx : x ∈ xs)
    (hstop : stops x e) : ∃ e, StopsFirst stops e xs := by
  induction xs with
  | nil => cases hx
  | cons first xs ih =>
    by_cases hfirst : ∃ e, stops first e
    · obtain ⟨e, he⟩ := hfirst
      exact ⟨e, .head he⟩
    · rcases List.mem_cons.1 hx with rfl | hrest
      · exact absurd ⟨e, hstop⟩ hfirst
      · obtain ⟨e, he⟩ := ih hrest
        exact ⟨e, .tail (not_exists.1 hfirst) he⟩

/-- If each step fails with what stops it and else yields something with `P`, a traversal fails with
what stops the first of the stopped steps, and without such a step yields as many things with `P`. -/
theorem mapM_of_stops {f : α → Except ε β} {stops : α → ε → Prop} {P : β → Prop} {xs : List α}
    (h : ∀ x ∈ xs, (∀ e, stops x e → f x = .error e) ∧
      ((∀ e, ¬ stops x e) → ∃ y, f x = .ok y ∧ P y)) :
    (∀ e, StopsFirst stops e xs → xs.mapM f = .error e) ∧
    ((∀ e, ¬ StopsFirst stops e xs) →
      ∃ ys, xs.mapM f = .ok ys ∧ ys.length = xs.length ∧ ∀ y ∈ ys, P y) := by
  induction xs with
  | nil =>
    refine ⟨fun e hstop => ?_, fun _ => ⟨[], rfl, rfl, by simp⟩⟩
    cases hstop
  | cons x xs ih =>
    rw [List.forall_mem_cons] at h
    obtain ⟨⟨hfail, hyield⟩, hrest⟩ := h
    obtain ⟨ihfail, ihyield⟩ := ih hrest
    rw [List.mapM_cons]
    constructor
    · intro e hstop
      cases hstop with
      | head hstop =>
        rw [hfail e hstop]
        rfl
      | tail hgo hlater =>
        obtain ⟨y, hy, -⟩ := hyield hgo
        rw [hy, ihfail e hlater]
        rfl
    · intro hgo
      obtain ⟨y, hy, hP⟩ := hyield fun e hstop => hgo e (.head hstop)
      have hlater : ∀ e, ¬ StopsFirst stops e xs := fun e hstop =>
        hgo e (.tail (fun e' hstop' => hgo e' (.head hstop')) hstop)
      obtain ⟨ys, hys, hlength, hPs⟩ := ihyield hlater
      rw [hy, hys]
      refine ⟨y :: ys, rfl, ?_, List.forall_mem_cons.2 ⟨hP, hPs⟩⟩
      rw [List.length_cons, List.length_cons, hlength]

/-- If each step fails where `bad` holds and yields something with `P` elsewhere, a traversal fails if
`bad` holds somewhere, and else yields as many things with `P`. -/
theorem mapM_cases {f : α → Except ε β} {bad : α → Prop} {P : β → Prop} {e : ε} {xs : List α}
    (h : ∀ x ∈ xs, bad x ∧ f x = .error e ∨ ¬ bad x ∧ ∃ y, f x = .ok y ∧ P y) :
    (∃ x ∈ xs, bad x) ∧ xs.mapM f = .error e ∨
    (¬ ∃ x ∈ xs, bad x) ∧
      ∃ ys, xs.mapM f = .ok ys ∧ ys.length = xs.length ∧ ∀ y ∈ ys, P y := by
  have hsteps : ∀ x ∈ xs, (∀ e', bad x ∧ e' = e → f x = .error e') ∧
      ((∀ e', ¬ (bad x ∧ e' = e)) → ∃ y, f x = .ok y ∧ P y) := by
    intro x hx
    rcases h x hx with ⟨hbad, hfx⟩ | ⟨hgood, hy⟩
    · exact ⟨fun e' hstop => hstop.2 ▸ hfx, fun hgo => absurd ⟨hbad, rfl⟩ (hgo e)⟩
    · exact ⟨fun e' hstop => absurd hstop.1 hgood, fun _ => hy⟩
  obtain ⟨hfail, hyield⟩ := mapM_of_stops hsteps
  by_cases hbad : ∃ x ∈ xs, bad x
  · obtain ⟨x, hx, hx'⟩ := hbad
    obtain ⟨e', hfirst⟩ : ∃ e', StopsFirst (fun x e' => bad x ∧ e' = e) e' xs :=
      exists_stopsFirst hx ⟨hx', rfl⟩
    obtain ⟨-, -, -, rfl⟩ := hfirst.exists_mem
    exact .inl ⟨⟨x, hx, hx'⟩, hfail _ hfirst⟩
  · refine .inr ⟨hbad, hyield fun e' hfirst => ?_⟩
    obtain ⟨x, hx, hx', -⟩ := hfirst.exists_mem
    exact hbad ⟨x, hx, hx'⟩

/-! ## Kinds of failure -/

/-- Whatever stops the computation has the property. -/
def FailsOnly (P : ε → Prop) (x : Except ε α) : Prop :=
  ∀ e, x = .error e → P e

namespace FailsOnly

variable {P : ε → Prop}

theorem ok (a : α) : FailsOnly P (.ok a : Except ε α) := by
  intro e h
  cases h

theorem error {e : ε} (h : P e) : FailsOnly P (.error e : Except ε α) := by
  intro e' h'
  cases h'
  exact h

theorem bind {x : Except ε α} {f : α → Except ε β} (hx : FailsOnly P x)
    (hf : ∀ a, FailsOnly P (f a)) : FailsOnly P (x >>= f) := by
  intro e h
  cases x with
  | error e' =>
    cases h
    exact hx e rfl
  | ok a => exact hf a e h

theorem mapM {f : α → Except ε β} {xs : List α} (h : ∀ x ∈ xs, FailsOnly P (f x)) :
    FailsOnly P (xs.mapM f) := by
  induction xs with
  | nil => exact ok []
  | cons x xs ih =>
    rw [List.forall_mem_cons] at h
    rw [List.mapM_cons]
    exact bind h.1 fun y => bind (ih h.2) fun ys => ok (y :: ys)

theorem anyM {f : α → Except ε Bool} {xs : List α} (h : ∀ x ∈ xs, FailsOnly P (f x)) :
    FailsOnly P (xs.anyM f) := by
  induction xs with
  | nil => exact ok false
  | cons x xs ih =>
    rw [List.forall_mem_cons] at h
    rw [List.anyM_cons]
    refine bind h.1 fun found => ?_
    cases found with
    | true => exact ok true
    | false => exact ih h.2

theorem filterAuxM {f : α → Except ε Bool} {xs : List α} (h : ∀ x ∈ xs, FailsOnly P (f x))
    (kept : List α) : FailsOnly P (xs.filterAuxM f kept) := by
  induction xs generalizing kept with
  | nil => exact ok kept
  | cons x xs ih =>
    rw [List.forall_mem_cons] at h
    exact bind h.1 fun keeps => ih h.2 _

theorem filterM {f : α → Except ε Bool} {xs : List α} (h : ∀ x ∈ xs, FailsOnly P (f x)) :
    FailsOnly P (xs.filterM f) :=
  bind (filterAuxM h []) fun kept => ok kept.reverse

end FailsOnly

end FlakeLint
