import TransportStream.Source.Basic

/-!
# Exchanges with a source

An operation has a result, leaves the source in some state and has made requests of
it. With `andThen` the second operation starts where the first has left the source.
-/
namespace TransportStream

/-- The outcome of dealing with a source: a result, the source as it is left,
and the requests made of it, oldest first. -/
structure Exchange (α : Type) where
  result : α
  source : Source
  requests : List Request

namespace Exchange
variable {α β ε : Type}

def done (result : α) (s : Source) : Exchange α := ⟨result, s, []⟩

def map (f : α → β) (x : Exchange α) : Exchange β := { x with result := f x.result }

/-- The same outcome, reached after some earlier requests. -/
def after (requests : List Request) (x : Exchange α) : Exchange α :=
  { x with requests := requests ++ x.requests }

/-- Goes on with `next` where `x` succeeded; a failure is the outcome of the whole. -/
def andThen (x : Exchange (Except ε α)) (next : α → Source → Exchange (Except ε β)) :
    Exchange (Except ε β) :=
  match x.result with
  | .ok a => (next a x.source).after x.requests
  | .error e => { x with result := .error e }

/-- The same outcome with every failure retold by `f`. -/
def mapError {δ : Type} (f : ε → δ) (x : Exchange (Except ε α)) : Exchange (Except δ α) :=
  x.map (·.mapError f)

@[simp] theorem result_map (f : α → β) (x : Exchange α) : (x.map f).result = f x.result := rfl

@[simp] theorem source_map (f : α → β) (x : Exchange α) : (x.map f).source = x.source := rfl

@[simp] theorem requests_map (f : α → β) (x : Exchange α) :
    (x.map f).requests = x.requests := rfl

@[simp] theorem result_after (rs : List Request) (x : Exchange α) :
    (x.after rs).result = x.result := rfl

@[simp] theorem source_after (rs : List Request) (x : Exchange α) :
    (x.after rs).source = x.source := rfl

@[simp] theorem requests_after (rs : List Request) (x : Exchange α) :
    (x.after rs).requests = rs ++ x.requests := rfl

theorem andThen_of_ok {x : Exchange (Except ε α)} {a : α} (h : x.result = .ok a)
    (next : α → Source → Exchange (Except ε β)) :
    x.andThen next = (next a x.source).after x.requests := by
  unfold andThen
  split <;> simp_all

theorem andThen_of_error {x : Exchange (Except ε α)} {e : ε} (h : x.result = .error e)
    (next : α → Source → Exchange (Except ε β)) :
    x.andThen next = ⟨.error e, x.source, x.requests⟩ := by
  unfold andThen
  split <;> simp_all

theorem result_andThen_eq_ok {x : Exchange (Except ε α)} {b : β}
    {next : α → Source → Exchange (Except ε β)} :
    (x.andThen next).result = .ok b ↔
      ∃ a, x.result = .ok a ∧ (next a x.source).result = .ok b := by
  cases h : x.result with
  | error e => simp [andThen_of_error h]
  | ok a => simp [andThen_of_ok h]

theorem result_andThen_eq_error {x : Exchange (Except ε α)} {e : ε}
    {next : α → Source → Exchange (Except ε β)} :
    (x.andThen next).result = .error e ↔
      x.result = .error e ∨ ∃ a, x.result = .ok a ∧ (next a x.source).result = .error e := by
  cases h : x.result with
  | error e => simp [andThen_of_error h]
  | ok a => simp [andThen_of_ok h]

theorem result_mapError_eq_error {δ : Type} {f : ε → δ} {x : Exchange (Except ε α)} {d : δ} :
    (x.mapError f).result = .error d ↔ ∃ e, x.result = .error e ∧ f e = d := by
  rw [mapError, result_map]
  cases x.result with
  | error e =>
    change (Except.error (f e) : Except δ α) = .error d ↔ _
    simp
  | ok a =>
    change (Except.ok a : Except δ α) = .error d ↔ _
    simp

end Exchange

namespace Source

/-- Going back to the first byte. The answers to coming reads stay as they are. -/
def rewind (s : Source) : Exchange (Except Fault Bool) :=
  match s.rewinding with
  | .supported => ⟨.ok true, { s with position := 0 }, [.rewind (.ok true)]⟩
  | .unsupported => ⟨.ok false, s, [.rewind (.ok false)]⟩
  | .failing fault => ⟨.error fault, s, [.rewind (.error fault)]⟩

end Source

end TransportStream
