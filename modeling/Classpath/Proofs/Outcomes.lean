namespace Classpath

/-! # Steps that may fail

A chain of steps succeeds if each of them does, and fails as the first one that does not. Every
reader of a list stops at the first item that it cannot read, so all of them are `List.mapM`. -/

variable {ε ε' α β : Type}

/-! ## One step after another -/

theorem bind_eq_ok {x : Except ε α} {f : α → Except ε β} {b : β} :
    x >>= f = .ok b ↔ ∃ a, x = .ok a ∧ f a = .ok b := by
  cases x with
  | error e => simp [bind, Except.bind]
  | ok a => simp [bind, Except.bind]

theorem map_eq_ok {x : Except ε α} {f : α → β} {b : β} :
    x.map f = .ok b ↔ ∃ a, x = .ok a ∧ f a = b := by
  cases x with
  | error e => simp [Except.map]
  | ok a => simp [Except.map]

theorem map_eq_error {x : Except ε α} {f : α → β} {e : ε} : x.map f = .error e ↔ x = .error e := by
  cases x with
  | error e => simp [Except.map]
  | ok a => simp [Except.map]

@[simp] theorem mapError_ok (f : ε → ε') (a : α) : (Except.ok a).mapError f = .ok a :=
  rfl

@[simp] theorem mapError_error (f : ε → ε') (e : ε) :
    (Except.error e : Except ε α).mapError f = .error (f e) :=
  rfl

@[simp] theorem mapError_eq_ok {x : Except ε α} {f : ε → ε'} {a : α} :
    x.mapError f = .ok a ↔ x = .ok a := by
  cases x with
  | error e => simp
  | ok a => simp

theorem mapError_eq_error {x : Except ε α} {f : ε → ε'} {e : ε'} :
    x.mapError f = .error e ↔ ∃ d, x = .error d ∧ f d = e := by
  cases x with
  | error e => simp
  | ok a => simp

theorem toOption_eq_some_iff {x : Except ε α} {a : α} :
    x.toOption = some a ↔ x = .ok a := by
  cases x with
  | error e => simp [Except.toOption]
  | ok a => simp [Except.toOption]

theorem isOk_iff {x : Except ε α} : x.isOk = true ↔ ∃ a, x = .ok a := by
  cases x with
  | error e => simp [Except.isOk, Except.toBool]
  | ok a => simp [Except.isOk, Except.toBool]

/-! ## Failures in order -/

/-- The failure of a step, if it fails. -/
def failure? : Except ε α → Option ε
  | .ok _ => none
  | .error e => some e

theorem failure?_eq_none_iff {x : Except ε α} : failure? x = none ↔ ∃ a, x = .ok a := by
  cases x with
  | error e => simp [failure?]
  | ok a => simp [failure?]

theorem failure?_eq_some_iff {x : Except ε α} {e : ε} : failure? x = some e ↔ x = .error e := by
  cases x with
  | error e => simp [failure?]
  | ok a => simp [failure?]

@[simp] theorem failure?_map (x : Except ε α) (f : α → β) : failure? (x.map f) = failure? x := by
  cases x <;> rfl

@[simp] theorem failure?_mapError (x : Except ε α) (f : ε → ε') :
    failure? (x.mapError f) = (failure? x).map f := by
  cases x <;> rfl

theorem findSome?_map_map (f : α → β) (xs : List (Option α)) :
    (xs.map (Option.map f)).findSome? id = (xs.findSome? id).map f := by
  induction xs with
  | nil => rfl
  | cons x xs ih =>
    cases x with
    | none => exact ih
    | some a => rfl

/-- If two steps fail as the first failure of two lists, the chain of them fails as that of both
lists together. -/
theorem failure?_bind {x : Except ε α} {g : α → Except ε β} {here later : List (Option ε)}
    (hx : failure? x = here.findSome? id)
    (hg : ∀ a, x = .ok a → failure? (g a) = later.findSome? id) :
    failure? (x.bind g) = (here ++ later).findSome? id := by
  rw [List.findSome?_append, ← hx]
  cases x with
  | error e => rfl
  | ok a => exact hg a rfl

/-! ## Lists of steps -/

variable {f : α → Except ε β} {xs : List α}

theorem mapM_cons (x : α) (xs : List α) :
    (x :: xs).mapM f = (f x).bind fun y => (xs.mapM f).map fun ys => y :: ys := by
  rw [List.mapM_cons]
  cases f x with
  | error e => rfl
  | ok y => cases List.mapM f xs <;> rfl

/-- All items can be read, and nothing else is in the result. -/
theorem mapM_eq_ok_iff {ys : List β} :
    xs.mapM f = .ok ys ↔
      (∀ x ∈ xs, (f x).isOk = true) ∧ (xs.filterMap fun x => (f x).toOption) = ys := by
  -- On the list, for every result: the first value is that of the first item.
  induction xs generalizing ys with
  | nil =>
    constructor
    · intro h
      cases h
      simp
    · rintro ⟨_, rfl⟩
      rfl
  | cons x xs ih =>
    rw [mapM_cons]
    cases hx : f x with
    | error e => simp [hx, Except.bind, Except.isOk, Except.toBool]
    | ok y =>
      simp only [Except.bind, map_eq_ok, ih, List.mem_cons, forall_eq_or_imp, hx,
        List.filterMap_cons, Except.toOption]
      constructor
      · rintro ⟨zs, ⟨hall, rfl⟩, rfl⟩
        exact ⟨⟨rfl, hall⟩, rfl⟩
      · rintro ⟨⟨_, hall⟩, rfl⟩
        exact ⟨_, ⟨hall, rfl⟩, rfl⟩

/-- The failure is that of the first item that cannot be read. -/
theorem mapM_eq_error_iff {e : ε} :
    xs.mapM f = .error e ↔ ∃ before x after, xs = before ++ x :: after ∧
      (∀ y ∈ before, (f y).isOk = true) ∧ f x = .error e := by
  induction xs with
  | nil =>
    constructor
    · intro h
      cases h
    · rintro ⟨before, x, after, hxs, _⟩
      simp at hxs
  | cons x xs ih =>
    rw [mapM_cons]
    cases hx : f x with
    | error first =>
      constructor
      · intro h
        cases h
        exact ⟨[], x, xs, rfl, by simp, hx⟩
      · rintro ⟨before, y, after, hxs, hbefore, hy⟩
        cases before with
        | nil =>
          cases hxs
          have heq : first = e := Except.error.inj (hx.symm.trans hy)
          rw [heq]
          rfl
        | cons z before =>
          cases hxs
          have hfirst := hbefore x List.mem_cons_self
          simp [hx, Except.isOk, Except.toBool] at hfirst
    | ok value =>
      -- The first item can be read, so the failure is one of the others.
      have hrest : (Except.ok value).bind (fun y => (xs.mapM f).map fun ys => y :: ys) =
          .error e ↔ xs.mapM f = .error e := map_eq_error
      rw [hrest, ih]
      constructor
      · rintro ⟨before, y, after, rfl, hbefore, hy⟩
        refine ⟨x :: before, y, after, rfl, ?_, hy⟩
        intro z hz
        rcases List.mem_cons.1 hz with rfl | hz
        · exact isOk_iff.2 ⟨value, hx⟩
        · exact hbefore z hz
      · rintro ⟨before, y, after, hxs, hbefore, hy⟩
        cases before with
        | nil =>
          cases hxs
          simp [hx] at hy
        | cons z before =>
          cases hxs
          exact ⟨before, y, after, rfl, fun w hw => hbefore w (List.mem_cons_of_mem x hw), hy⟩

end Classpath
