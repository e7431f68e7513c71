import Mathlib.Data.List.Forall2

set_option autoImplicit false

namespace GrpcStubs

variable {α β ε δ : Type}

theorem bind_eq_ok_iff {x : Except ε α} {f : α → Except ε β} {b : β} :
    (x >>= f) = .ok b ↔ ∃ a, x = .ok a ∧ f a = .ok b := by
  cases x with
  | error e => exact iff_of_false (by simp [bind, Except.bind]) (by simp)
  | ok a => simp [bind, Except.bind]

theorem bind_eq_error_iff {x : Except ε α} {f : α → Except ε β} {e : ε} :
    (x >>= f) = .error e ↔ x = .error e ∨ ∃ a, x = .ok a ∧ f a = .error e := by
  cases x <;> simp [bind, Except.bind]

theorem bind_pure_eq_error_iff {x : Except ε α} {f : α → β} {e : ε} :
    (x >>= fun a => pure (f a)) = .error e ↔ x = .error e := by
  cases x <;> simp [bind, Except.bind, pure, Except.pure]

theorem map_eq_ok_iff {x : Except ε α} {f : α → β} {b : β} :
    x.map f = .ok b ↔ ∃ a, x = .ok a ∧ f a = b := by
  cases x <;> simp [Except.map]

theorem map_eq_error_iff {x : Except ε α} {f : α → β} {e : ε} :
    x.map f = .error e ↔ x = .error e := by
  cases x <;> simp [Except.map]

theorem mapError_eq_ok_iff {x : Except ε α} {f : ε → δ} {a : α} :
    x.mapError f = .ok a ↔ x = .ok a := by
  cases x <;> simp [Except.mapError]

theorem mapError_eq_error_iff {x : Except ε α} {f : ε → δ} {d : δ} :
    x.mapError f = .error d ↔ ∃ e, x = .error e ∧ f e = d := by
  cases x <;> simp [Except.mapError]

theorem forall_or_first (p : α → Prop) (xs : List α) :
    (∀ x ∈ xs, p x) ∨
      ∃ before x after, xs = before ++ x :: after ∧ (∀ y ∈ before, p y) ∧ ¬ p x := by
  induction xs with
  | nil => exact .inl fun x hx => absurd hx List.not_mem_nil
  | cons first rest ih =>
    by_cases hfirst : p first
    · rcases ih with hall | ⟨before, x, after, rfl, hbefore, hx⟩
      · exact .inl (List.forall_mem_cons.mpr ⟨hfirst, hall⟩)
      · exact .inr ⟨first :: before, x, after, rfl,
          List.forall_mem_cons.mpr ⟨hfirst, hbefore⟩, hx⟩
    · exact .inr ⟨[], first, rest, rfl, fun y hy => absurd hy List.not_mem_nil, hfirst⟩

def FirstFailure (f : α → Except ε β) (xs : List α) (e : ε) : Prop :=
  ∃ before x after, xs = before ++ x :: after ∧ (∀ y ∈ before, ∃ b, f y = .ok b) ∧ f x = .error e

theorem firstFailure_cons_of_error {f : α → Except ε β} {x : α} {found e : ε} {xs : List α}
    (h : f x = .error found) : FirstFailure f (x :: xs) e ↔ found = e := by
  constructor
  · rintro ⟨before, y, after, hsplit, hbefore, hy⟩
    cases before with
    | nil =>
      obtain ⟨rfl, -⟩ := List.cons.inj hsplit
      exact Except.error.inj (h.symm.trans hy)
    | cons z before =>
      obtain ⟨rfl, -⟩ := List.cons.inj hsplit
      obtain ⟨b, hb⟩ := hbefore x List.mem_cons_self
      rw [h] at hb
      cases hb
  · rintro rfl
    exact ⟨[], x, xs, rfl, fun _ hy => absurd hy List.not_mem_nil, h⟩

theorem firstFailure_cons_of_ok {f : α → Except ε β} {x : α} {b : β} {xs : List α} {e : ε}
    (h : f x = .ok b) : FirstFailure f (x :: xs) e ↔ FirstFailure f xs e := by
  constructor
  · rintro ⟨before, y, after, hsplit, hbefore, hy⟩
    cases before with
    | nil =>
      obtain ⟨rfl, -⟩ := List.cons.inj hsplit
      rw [h] at hy
      cases hy
    | cons z before =>
      obtain ⟨-, rfl⟩ := List.cons.inj hsplit
      exact ⟨before, y, after, rfl, fun w hw => hbefore w (List.mem_cons_of_mem z hw), hy⟩
  · rintro ⟨before, y, after, rfl, hbefore, hy⟩
    exact ⟨x :: before, y, after, rfl, List.forall_mem_cons.mpr ⟨⟨b, h⟩, hbefore⟩, hy⟩

theorem mapM_cons_of_ok {f : α → Except ε β} {x : α} {b : β} (h : f x = .ok b) (xs : List α) :
    (x :: xs).mapM f = (xs.mapM f).map (b :: ·) := by
  rw [List.mapM_cons, h]
  cases xs.mapM f <;> rfl

theorem mapM_cons_of_error {f : α → Except ε β} {x : α} {e : ε} (h : f x = .error e)
    (xs : List α) : (x :: xs).mapM f = .error e := by
  rw [List.mapM_cons, h]
  rfl

theorem mapM_eq_ok_iff {f : α → Except ε β} {xs : List α} {ys : List β} :
    xs.mapM f = .ok ys ↔ List.Forall₂ (fun x y => f x = .ok y) xs ys := by
  induction xs generalizing ys with
  | nil =>
    rw [List.mapM_nil, List.forall₂_nil_left_iff]
    exact ⟨fun h => (Except.ok.inj h).symm, fun h => h ▸ rfl⟩
  | cons x xs ih =>
    rw [List.forall₂_cons_left_iff]
    cases hx : f x with
    | error e =>
      rw [mapM_cons_of_error hx]
      exact iff_of_false (by simp) (by simp)
    | ok b =>
      rw [mapM_cons_of_ok hx]
      constructor
      · intro h
        cases hxs : xs.mapM f with
        | error e => rw [hxs] at h; cases h
        | ok bs =>
          rw [hxs] at h
          exact ⟨b, bs, rfl, ih.mp hxs, (Except.ok.inj h).symm⟩
      · rintro ⟨c, bs, hc, hbs, rfl⟩
        rw [ih.mpr hbs, Except.ok.inj hc]
        rfl

theorem exists_mapM_eq_ok_iff {f : α → Except ε β} {xs : List α} :
    (∃ ys, xs.mapM f = .ok ys) ↔ ∀ x ∈ xs, ∃ y, f x = .ok y := by
  induction xs with
  | nil => exact iff_of_true ⟨[], rfl⟩ fun x hx => absurd hx List.not_mem_nil
  | cons x xs ih =>
    rw [List.forall_mem_cons, ← ih]
    cases hx : f x with
    | error e => simp [mapM_cons_of_error hx]
    | ok b =>
      rw [mapM_cons_of_ok hx]
      cases xs.mapM f <;> simp [Except.map]

theorem mapM_eq_error_iff {f : α → Except ε β} {xs : List α} {e : ε} :
    xs.mapM f = .error e ↔ FirstFailure f xs e := by
  induction xs with
  | nil =>
    refine iff_of_false (by simp [pure, Except.pure]) ?_
    rintro ⟨before, x, after, hsplit, -⟩
    simp at hsplit
  | cons x xs ih =>
    cases hx : f x with
    | error found =>
      rw [mapM_cons_of_error hx, firstFailure_cons_of_error hx, Except.error.injEq]
    | ok b =>
      rw [mapM_cons_of_ok hx, firstFailure_cons_of_ok hx, ← ih]
      cases xs.mapM f with
      | error found => exact Iff.rfl
      | ok bs => exact iff_of_false (by simp [Except.map]) (by simp)

theorem mapM_zipIdx_eq_ok_iff {f : α × Nat → Except ε β} {xs : List α} {ys : List β} :
    xs.zipIdx.mapM f = .ok ys ↔ ys.length = xs.length ∧
      ∀ i x, xs[i]? = some x → ∃ y, ys[i]? = some y ∧ f (x, i) = .ok y := by
  rw [mapM_eq_ok_iff, List.forall₂_iff_get]
  constructor
  · rintro ⟨hlength, heach⟩
    rw [List.length_zipIdx] at hlength
    refine ⟨hlength.symm, fun i x hx => ?_⟩
    obtain ⟨hi, rfl⟩ := List.getElem?_eq_some_iff.mp hx
    have hi' : i < ys.length := hlength ▸ hi
    refine ⟨ys[i], List.getElem?_eq_getElem hi', ?_⟩
    simpa using heach i (by simpa using hi) hi'
  · rintro ⟨hlength, heach⟩
    refine ⟨List.length_zipIdx.trans hlength.symm, fun i hi hi' => ?_⟩
    have hx : i < xs.length := hlength ▸ hi'
    obtain ⟨y, hy, hf⟩ := heach i xs[i] (List.getElem?_eq_getElem hx)
    obtain ⟨_, rfl⟩ := List.getElem?_eq_some_iff.mp hy
    simpa using hf

/-- Where only the elements decide whether an action fails, the first of them that fails decides for
    the list. -/
theorem mapM_zipIdx_eq_error_iff {f : α × Nat → Except ε β} {fault? : α → Option ε} {xs : List α}
    {start : Nat} {e : ε}
    (h : ∀ x i, (x, i) ∈ xs.zipIdx start → ∀ e, f (x, i) = .error e ↔ fault? x = some e) :
    (xs.zipIdx start).mapM f = .error e ↔ xs.findSome? fault? = some e := by
  induction xs generalizing start with
  | nil => exact iff_of_false (by simp [pure, Except.pure]) (by simp)
  | cons x xs ih =>
    rw [List.zipIdx_cons] at h
    have hx := h x start List.mem_cons_self
    have hxs := ih fun y i hy => h y i (List.mem_cons_of_mem _ hy)
    rw [List.zipIdx_cons, List.findSome?_cons]
    cases hf : f (x, start) with
    | error found =>
      rw [mapM_cons_of_error hf, (hx found).mp hf]
      simp
    | ok b =>
      have hnone : fault? x = none := by
        refine Option.eq_none_iff_forall_ne_some.mpr fun found hfound => ?_
        rw [(hx found).mpr hfound] at hf
        cases hf
      rw [mapM_cons_of_ok hf, hnone, ← hxs]
      cases (xs.zipIdx (start + 1)).mapM f <;> simp [Except.map]

end GrpcStubs
