import Mathlib.Data.List.Forall2

namespace Backstep

variable {ε α β : Type}

@[simp] theorem pure_eq_ok (a : α) : (pure a : Except ε α) = .ok a := rfl

@[simp] theorem ok_bind (a : α) (f : α → Except ε β) : Except.ok a >>= f = f a := rfl

@[simp] theorem error_bind (e : ε) (f : α → Except ε β) : Except.error e >>= f = .error e := rfl

theorem bind_eq_ok {x : Except ε α} {f : α → Except ε β} {b : β} :
    x >>= f = .ok b ↔ ∃ a, x = .ok a ∧ f a = .ok b := by
  cases x with
  | error e => simp [bind, Except.bind]
  | ok a => simp [bind, Except.bind]

theorem bind_eq_error {x : Except ε α} {f : α → Except ε β} {e : ε} :
    x >>= f = .error e ↔ x = .error e ∨ ∃ a, x = .ok a ∧ f a = .error e := by
  cases x with
  | error e' => simp [bind, Except.bind]
  | ok a => simp [bind, Except.bind]

theorem map_eq_ok {x : Except ε α} {f : α → β} {b : β} :
    x.map f = .ok b ↔ ∃ a, x = .ok a ∧ f a = b := by
  cases x with
  | error e => simp [Except.map]
  | ok a => simp [Except.map]

theorem map_eq_error {x : Except ε α} {f : α → β} {e : ε} :
    x.map f = .error e ↔ x = .error e := by
  cases x <;> simp [Except.map]

section Rules

variable {x : Except ε α} {accepts : Prop} {refuses : ε → Prop}
  (total : accepts ∨ ∃ e, refuses e) (succeeds : accepts → ∃ a, x = .ok a)
  (fails : ∀ e, refuses e → x = .error e)
include total succeeds fails

/-- Rules that a computation follows, and that leave nothing undecided, say just when it succeeds
and with what error it fails. -/
theorem exists_eq_ok_iff_of_rules : (∃ a, x = .ok a) ↔ accepts := by
  refine ⟨?_, succeeds⟩
  rintro ⟨a, made⟩
  obtain accepted | ⟨e, refused⟩ := total
  · exact accepted
  · cases made.symm.trans (fails e refused)

theorem eq_error_iff_of_rules {e : ε} : x = .error e ↔ refuses e := by
  refine ⟨fun failed => ?_, fails e⟩
  obtain accepted | ⟨e', refused⟩ := total
  · obtain ⟨a, made⟩ := succeeds accepted
    cases made.symm.trans failed
  · cases failed.symm.trans (fails e' refused)
    exact refused

end Rules

theorem mapM_eq_ok {f : α → Except ε β} {xs : List α} {ys : List β} :
    xs.mapM f = .ok ys ↔ List.Forall₂ (fun x y => f x = .ok y) xs ys := by
  induction xs generalizing ys with
  | nil => cases ys <;> simp
  | cons x xs ih =>
    rw [List.mapM_cons, bind_eq_ok]
    simp only [bind_eq_ok, ih, pure_eq_ok, Except.ok.injEq]
    constructor
    · rintro ⟨y, hy, ys, hys, rfl⟩
      exact .cons hy hys
    · intro h
      cases h with
      | cons hy hys => exact ⟨_, hy, _, hys, rfl⟩

theorem mapM_eq_error {f : α → Except ε β} {xs : List α} {e : ε} :
    xs.mapM f = .error e ↔ ∃ (i : Nat) (x : α), xs[i]? = some x ∧
      (∀ (j : Nat) y, j < i → xs[j]? = some y → ∃ b, f y = .ok b) ∧ f x = .error e := by
  induction xs with
  | nil => simp
  | cons first rest ih =>
    rw [List.mapM_cons]
    cases made : f first with
    | error e' =>
      simp only [error_bind, Except.error.injEq]
      constructor
      · rintro rfl
        exact ⟨0, first, rfl, by simp, made⟩
      · rintro ⟨i, x, at_i, earlier, failed⟩
        cases i with
        | zero =>
          cases at_i
          simpa [made] using failed
        | succ i =>
          obtain ⟨b, made'⟩ := earlier 0 first (Nat.succ_pos i) rfl
          simp [made] at made'
    | ok b =>
      rw [ok_bind, bind_eq_error]
      simp only [ih, pure_eq_ok, reduceCtorEq, and_false, exists_false, or_false]
      constructor
      · rintro ⟨i, x, at_i, earlier, failed⟩
        refine ⟨i + 1, x, at_i, fun j y hj at_j => ?_, failed⟩
        cases j with
        | zero =>
          cases at_j
          exact ⟨b, made⟩
        | succ j => exact earlier j y (Nat.lt_of_succ_lt_succ hj) at_j
      · rintro ⟨i, x, at_i, earlier, failed⟩
        cases i with
        | zero =>
          cases at_i
          simp [made] at failed
        | succ i =>
          refine ⟨i, x, at_i, fun j y hj at_j => ?_, failed⟩
          exact earlier (j + 1) y (Nat.succ_lt_succ hj) at_j

theorem mapM_map_of_forall {α' β' ε' : Type} {f : α → Except ε β} {g : α' → Except ε' β'}
    {h : α → α'} {r : β → β'} {k : ε → ε'} (each : ∀ x, g (h x) = ((f x).map r).mapError k)
    (xs : List α) : (xs.map h).mapM g = ((xs.mapM f).map (List.map r)).mapError k := by
  induction xs with
  | nil => rfl
  | cons x xs ih =>
    rw [List.map_cons, List.mapM_cons, List.mapM_cons, each, ih]
    cases f x with
    | error e => rfl
    | ok y => cases xs.mapM f <;> rfl

theorem length_of_mapM {f : α → Except ε β} {xs : List α} {ys : List β}
    (h : xs.mapM f = .ok ys) : ys.length = xs.length :=
  (mapM_eq_ok.mp h).length_eq.symm

theorem getElem?_of_mapM {f : α → Except ε β} {xs : List α} {ys : List β} {i : Nat} {x : α}
    (h : xs.mapM f = .ok ys) (at_i : xs[i]? = some x) : ∃ y, ys[i]? = some y ∧ f x = .ok y := by
  obtain ⟨length, each⟩ := List.forall₂_iff_get.mp (mapM_eq_ok.mp h)
  obtain ⟨hx, rfl⟩ := List.getElem?_eq_some_iff.mp at_i
  have hy : i < ys.length := length ▸ hx
  exact ⟨ys[i], List.getElem?_eq_getElem hy, each i hx hy⟩

theorem exists_of_mem_mapM {f : α → Except ε β} {xs : List α} {ys : List β} {y : β}
    (h : xs.mapM f = .ok ys) (mem : y ∈ ys) : ∃ x ∈ xs, f x = .ok y := by
  rw [mapM_eq_ok] at h
  induction h with
  | nil => cases mem
  | cons first _ ih =>
    cases mem with
    | head => exact ⟨_, List.mem_cons_self, first⟩
    | tail _ mem =>
      obtain ⟨x, mem, made⟩ := ih mem
      exact ⟨x, List.mem_cons_of_mem _ mem, made⟩

theorem mapM_eq_ok_of_imp {f g : α → Except ε β} {xs : List α} {ys : List β}
    (h : xs.mapM f = .ok ys) (imp : ∀ x ∈ xs, ∀ y, f x = .ok y → g x = .ok y) :
    xs.mapM g = .ok ys := by
  rw [mapM_eq_ok] at h ⊢
  induction h with
  | nil => exact .nil
  | cons first _ ih =>
    rw [List.forall_mem_cons] at imp
    exact .cons (imp.1 _ first) (ih imp.2)

theorem exists_mapM_eq_ok {f : α → Except ε β} {xs : List α} :
    (∃ ys, xs.mapM f = .ok ys) ↔ ∀ (i : Nat) x, xs[i]? = some x → ∃ y, f x = .ok y := by
  constructor
  · rintro ⟨ys, h⟩ i x at_i
    obtain ⟨y, -, hy⟩ := getElem?_of_mapM h at_i
    exact ⟨y, hy⟩
  · intro h
    induction xs with
    | nil => exact ⟨[], rfl⟩
    | cons x xs ih =>
      obtain ⟨y, hy⟩ := h 0 x rfl
      obtain ⟨ys, hys⟩ := ih fun i z at_i => h (i + 1) z at_i
      exact ⟨y :: ys, mapM_eq_ok.mpr (.cons hy (mapM_eq_ok.mp hys))⟩

inductive Agree {ε ε' α β : Type} (R : α → β → Prop) : Except ε α → Except ε' β → Prop
  | ok {a : α} {b : β} : R a b → Agree R (.ok a) (.ok b)
  | error {e : ε} {e' : ε'} : Agree R (.error e) (.error e')

namespace Agree

variable {ε' α' β' : Type} {R : α → β → Prop} {S : α' → β' → Prop} {x : Except ε α}
  {y : Except ε' β}

theorem of_forall {R : α → α → Prop} (all : ∀ a, R a a) (x : Except ε α) : Agree R x x := by
  cases x with
  | ok a => exact .ok (all a)
  | error e => exact .error

theorem refl (x : Except ε α) : Agree Eq x x := .of_forall (fun _ => rfl) x

theorem ok_iff {x : Except ε α} {y : Except ε' α} (h : Agree Eq x y) (a : α) :
    x = .ok a ↔ y = .ok a := by
  cases h with
  | ok same => simp [same]
  | error => simp

theorem bind {f : α → Except ε α'} {g : β → Except ε' β'} (h : Agree R x y)
    (each : ∀ a b, R a b → Agree S (f a) (g b)) : Agree S (x >>= f) (y >>= g) := by
  cases h with
  | ok related => exact each _ _ related
  | error => exact .error

theorem map {f : α → α'} {g : β → β'} (h : Agree R x y) (each : ∀ a b, R a b → S (f a) (g b)) :
    Agree S (x.map f) (y.map g) := by
  cases h with
  | ok related => exact .ok (each _ _ related)
  | error => exact .error

theorem mapM {f : α → Except ε α'} {g : β → Except ε' β'} {xs : List α} {ys : List β}
    (h : List.Forall₂ R xs ys) (each : ∀ a b, R a b → Agree S (f a) (g b)) :
    Agree (List.Forall₂ S) (xs.mapM f) (ys.mapM g) := by
  induction h with
  | nil => exact .ok .nil
  | cons first _ ih =>
    rw [List.mapM_cons, List.mapM_cons]
    exact (each _ _ first).bind fun a b related => ih.bind fun as bs rest => .ok (.cons related rest)

end Agree

end Backstep
