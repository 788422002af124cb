import Sentential.Log.Event

/-!
# Computations that report events

A `Traced ε α` is the outcome of a computation that reports events as it goes and either ends with a
value or fails. The events reported before a failure are kept. The `result` of a composite
computation depends on the results of its parts alone (`result_bind`), and its events are those of
the parts that ran, in order (`events_bind`).
-/

namespace Sentential

/-- Events in the order in which they were reported, and a value or a failure. -/
structure Traced (ε α : Type) where
  events : List Event
  result : Except ε α

namespace Traced

variable {ε δ α β : Type}

/-- A value, with nothing to report. -/
def done (a : α) : Traced ε α := ⟨[], .ok a⟩

/-- A failure, with nothing to report. -/
def fail (fault : ε) : Traced ε α := ⟨[], .error fault⟩

/-- A value or a failure, with nothing to report. -/
def ofExcept (result : Except ε α) : Traced ε α := ⟨[], result⟩

/-- Reports one event. -/
def note (e : Event) : Traced ε Unit := ⟨[e], .ok ()⟩

/-- Reports several events. -/
def noteAll (es : List Event) : Traced ε Unit := ⟨es, .ok ()⟩

/-- Goes on with the value of a computation, unless it failed. -/
def andThen (x : Traced ε α) (f : α → Traced ε β) : Traced ε β :=
  match x.result with
  | .ok a =>
      let y := f a
      ⟨x.events ++ y.events, y.result⟩
  | .error fault => ⟨x.events, .error fault⟩

instance : Monad (Traced ε) where
  pure := done
  bind := andThen

/-- Changes the failure of a computation. -/
def mapFault (f : ε → δ) (x : Traced ε α) : Traced δ α := ⟨x.events, x.result.mapError f⟩

@[simp] theorem result_pure (a : α) : (pure a : Traced ε α).result = .ok a := rfl

@[simp] theorem result_fail (fault : ε) : (fail fault : Traced ε α).result = .error fault := rfl

@[simp] theorem result_ofExcept (r : Except ε α) : (ofExcept r).result = r := rfl

@[simp] theorem result_note (e : Event) : (note e : Traced ε Unit).result = .ok () := rfl

@[simp] theorem result_noteAll (es : List Event) : (noteAll es : Traced ε Unit).result = .ok () :=
  rfl

@[simp] theorem result_mapFault (f : ε → δ) (x : Traced ε α) :
    (x.mapFault f).result = x.result.mapError f := rfl

/-- The result of a sequence is the sequence of the results. -/
@[simp] theorem result_bind (x : Traced ε α) (f : α → Traced ε β) :
    (x >>= f).result = x.result >>= fun a => (f a).result := by
  obtain ⟨events, result⟩ := x
  cases result <;> rfl

/-- The second part of a sequence reports its events only if the first part succeeds. -/
theorem events_bind (x : Traced ε α) (f : α → Traced ε β) :
    (x >>= f).events =
      x.events ++ match x.result with
        | .ok a => (f a).events
        | .error _ => [] := by
  obtain ⟨events, result⟩ := x
  cases result with
  | ok a => rfl
  | error fault => exact (List.append_nil _).symm

@[ext] theorem ext {x y : Traced ε α} (he : x.events = y.events) (hr : x.result = y.result) :
    x = y := by
  obtain ⟨_, _⟩ := x
  obtain ⟨_, _⟩ := y
  simp_all

instance : LawfulMonad (Traced ε) :=
  LawfulMonad.mk' (Traced ε)
    (fun x => by
      obtain ⟨events, result⟩ := x
      cases result with
      | ok a => exact Traced.ext (List.append_nil _) rfl
      | error fault => rfl)
    (fun _ _ => rfl)
    (fun x f g => by
      obtain ⟨events, result⟩ := x
      cases result with
      | error fault => rfl
      | ok a =>
          show andThen ⟨events ++ (f a).events, (f a).result⟩ g =
            ⟨events ++ (andThen (f a) g).events, (andThen (f a) g).result⟩
          rcases f a with ⟨_, _ | _⟩ <;> simp [andThen])

/-- The result of a traced map over a list is the map of the results. -/
theorem result_mapM (f : α → Traced ε β) (l : List α) :
    (l.mapM f).result = l.mapM fun a => (f a).result := by
  induction l with
  | nil => rfl
  | cons a rest ih =>
      rw [List.mapM_cons, List.mapM_cons]
      simp only [result_bind, ih, result_pure]
      rfl

end Traced

end Sentential
