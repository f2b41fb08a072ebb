import Mathlib.Data.List.Basic

/-!
# Go control flow in `Except`

A Go function returning `(T, error)` is modelled in `Except`: `if err != nil
{ return nil, err }` is a bind, and a loop
`for _, x := range xs { ...; if err != nil { return nil, err } }` over a state
is a `List.foldlM`. These are the rules the models use to step through them.
-/

namespace GoControl

variable {ε α β σ ι : Type}

@[simp] theorem ok_bind (a : α) (f : α → Except ε β) : (Except.ok a >>= f) = f a := rfl

@[simp] theorem error_bind (e : ε) (f : α → Except ε β) :
    (Except.error e >>= f : Except ε β) = .error e := rfl

@[simp] theorem map_ok (f : α → β) (a : α) : (Except.ok a : Except ε α).map f = .ok (f a) := rfl

@[simp] theorem map_error (f : α → β) (e : ε) : (Except.error e : Except ε α).map f = .error e :=
  rfl

/-- A bind succeeds exactly when both of its steps do. -/
theorem bind_eq_ok {x : Except ε α} {f : α → Except ε β} {b : β} :
    x >>= f = .ok b ↔ ∃ a, x = .ok a ∧ f a = .ok b := by
  cases x with
  | error e => exact ⟨fun h => (nomatch h), fun ⟨_, h, _⟩ => (nomatch h)⟩
  | ok a => exact ⟨fun h => ⟨a, rfl, h⟩, fun ⟨_, h, hf⟩ => by cases h; exact hf⟩

/-- A Go call whose error only sends the code to a fallback succeeds exactly when
the call does. -/
@[simp] theorem toOption_eq_some_iff {x : Except ε α} {a : α} :
    x.toOption = some a ↔ x = .ok a := by
  cases x <;> simp [Except.toOption]

/-- Wrapping a call's error leaves its result as it is. -/
@[simp] theorem mapError_eq_ok_iff {ε' : Type} {x : Except ε α} {f : ε → ε'} {a : α} :
    x.mapError f = .ok a ↔ x = .ok a := by
  cases x <;> simp [Except.mapError]

/-- A loop none of whose iterations fails returns the plain fold of them. -/
theorem foldlM_eq_ok (f : σ → ι → Except ε σ) (g : σ → ι → σ) (l : List ι) (init : σ)
    (hstep : ∀ s, ∀ x ∈ l, f s x = .ok (g s x)) :
    l.foldlM f init = .ok (l.foldl g init) := by
  induction l generalizing init with
  | nil => rfl
  | cons x xs ih =>
    have hx : f init x = .ok (g init x) := hstep init x List.mem_cons_self
    rw [List.foldlM_cons, hx, List.foldl_cons]
    exact ih (g init x) fun s y hy => hstep s y (List.mem_cons_of_mem x hy)

/-- A loop whose iterations either go on or fail with one error `e`, and one of
whose elements fails with it whatever the state, fails with `e`. -/
theorem foldlM_eq_error (f : σ → ι → Except ε σ) (e : ε)
    (hstep : ∀ s x, (∃ s', f s x = .ok s') ∨ f s x = .error e) :
    ∀ (l : List ι) (init : σ), (∃ x ∈ l, ∀ s, f s x = .error e) → l.foldlM f init = .error e
  | [], _, ⟨_, hx, _⟩ => absurd hx List.not_mem_nil
  | x :: xs, init, ⟨y, hy, hfail⟩ => by
    rw [List.foldlM_cons]
    rcases hstep init x with ⟨s', hs'⟩ | hx
    · rw [hs', ok_bind]
      rcases List.mem_cons.mp hy with rfl | hy
      · rw [hfail init] at hs'
        cases hs'
      · exact foldlM_eq_error f e hstep xs s' ⟨y, hy, hfail⟩
    · rw [hx, error_bind]

/-- A `mapM` none of whose calls fails returns the plain map. -/
theorem mapM_eq_ok (f : α → Except ε β) (g : α → β) :
    ∀ (l : List α), (∀ x ∈ l, f x = .ok (g x)) → l.mapM f = .ok (l.map g)
  | [], _ => rfl
  | x :: xs, hf => by
    rw [List.mapM_cons, hf x List.mem_cons_self, ok_bind,
      mapM_eq_ok f g xs fun y hy => hf y (List.mem_cons_of_mem x hy), ok_bind]
    rfl

/-- Each result of a `mapM` that succeeds is the result of a call on an element. -/
theorem exists_of_mem_mapM_eq_ok {f : α → Except ε β} :
    ∀ {l : List α} {ys : List β}, l.mapM f = .ok ys → ∀ y ∈ ys, ∃ x ∈ l, f x = .ok y
  | [], ys, h, y, hy => by
    simp only [List.mapM_nil] at h
    cases h
    exact absurd hy List.not_mem_nil
  | x :: xs, ys, h, y, hy => by
    rw [List.mapM_cons, bind_eq_ok] at h
    obtain ⟨b, hb, h⟩ := h
    rw [bind_eq_ok] at h
    obtain ⟨bs, hbs, h⟩ := h
    cases h
    rcases List.mem_cons.mp hy with rfl | hy
    · exact ⟨x, List.mem_cons_self, hb⟩
    · obtain ⟨x', hx', hf⟩ := exists_of_mem_mapM_eq_ok hbs y hy
      exact ⟨x', List.mem_cons_of_mem x hx', hf⟩

/-- `mapM` of a function that undoes `g` on every element gives the list back. -/
theorem mapM_map_eq_ok (f : β → Except ε α) (g : α → β) :
    ∀ (l : List α), (∀ x ∈ l, f (g x) = .ok x) → (l.map g).mapM f = .ok l
  | [], _ => rfl
  | x :: xs, hf => by
    rw [List.map_cons, List.mapM_cons, hf x List.mem_cons_self, ok_bind,
      mapM_map_eq_ok f g xs fun y hy => hf y (List.mem_cons_of_mem x hy), ok_bind]
    rfl

/-- A `mapM` that succeeds returns one result per element. -/
theorem length_of_mapM_eq_ok {f : α → Except ε β} :
    ∀ {l : List α} {ys : List β}, l.mapM f = .ok ys → ys.length = l.length
  | [], ys, h => by
    simp only [List.mapM_nil] at h
    cases h
    rfl
  | x :: xs, ys, h => by
    rw [List.mapM_cons, bind_eq_ok] at h
    obtain ⟨b, -, h⟩ := h
    rw [bind_eq_ok] at h
    obtain ⟨bs, hbs, h⟩ := h
    cases h
    simp [length_of_mapM_eq_ok hbs]

/-- A loop each of whose iterations succeeds, from any state, exactly when its
element passes a check runs to its end exactly when every element passes. -/
theorem foldlM_isOk_iff (f : σ → ι → Except ε σ) (P : ι → Prop)
    (hstep : ∀ s x, (∃ s', f s x = .ok s') ↔ P x) :
    ∀ (l : List ι) (init : σ), (∃ r, l.foldlM f init = .ok r) ↔ ∀ x ∈ l, P x
  | [], init => by simpa using ⟨init, rfl⟩
  | x :: xs, init => by
    rw [List.foldlM_cons]
    constructor
    · rintro ⟨r, h⟩
      obtain ⟨s', hs', h⟩ := bind_eq_ok.mp h
      have hrest := (foldlM_isOk_iff f P hstep xs s').mp ⟨r, h⟩
      exact List.forall_mem_cons.mpr ⟨(hstep init x).mp ⟨s', hs'⟩, hrest⟩
    · intro hall
      obtain ⟨hx, hxs⟩ := List.forall_mem_cons.mp hall
      obtain ⟨s', hs'⟩ := (hstep init x).mpr hx
      obtain ⟨r, h⟩ := (foldlM_isOk_iff f P hstep xs s').mpr hxs
      exact ⟨r, by rw [hs', ok_bind]; exact h⟩

/-- A `mapM` runs to its end exactly when each call succeeds. -/
theorem mapM_isOk_iff (f : α → Except ε β) :
    ∀ l : List α, (∃ ys, l.mapM f = .ok ys) ↔ ∀ x ∈ l, ∃ y, f x = .ok y
  | [] => by simpa using ⟨[], rfl⟩
  | x :: xs => by
    rw [List.mapM_cons]
    constructor
    · rintro ⟨ys, h⟩
      obtain ⟨y, hy, h⟩ := bind_eq_ok.mp h
      obtain ⟨ys', hys', -⟩ := bind_eq_ok.mp h
      exact List.forall_mem_cons.mpr ⟨⟨y, hy⟩, (mapM_isOk_iff f xs).mp ⟨ys', hys'⟩⟩
    · intro hall
      obtain ⟨⟨y, hy⟩, hxs⟩ := List.forall_mem_cons.mp hall
      obtain ⟨ys', hys'⟩ := (mapM_isOk_iff f xs).mpr hxs
      exact ⟨y :: ys', by rw [hy, ok_bind, hys', ok_bind]; rfl⟩

end GoControl
