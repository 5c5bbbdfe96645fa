import Mathlib.Data.List.ReduceOption

/-! Streams that are read by polling. A source has, at each poll, an item or
nothing yet; a poll that finds nothing registers a wake-up with the source. A
stream made from a source reads one answer of the source for each poll of its
own. A task polls it again once woken, or when it was given an item, and at no
other time. -/

namespace Conc

inductive Poll (α : Type)
  | ready (a : α)
  | pending
  deriving DecidableEq

/-- What a source has for the polls to come, in order: an item, or nothing yet. After
that it is closed, or silent for ever. -/
structure Source (α : Type) where
  moments : List (Option α)
  closed : Bool

variable {α β : Type}

namespace Source

def items (s : Source α) : List α := s.moments.reduceOption

def poll (s : Source α) : Poll (Option α) :=
  match s.moments with
  | [] => if s.closed then .ready none else .pending
  | none :: _ => .pending
  | some a :: _ => .ready (some a)

/-- The body of a loop that waits for the next item until the source is closed: what
`body` makes of each item, in order. -/
def loop (body : α → Option β) (closed : Bool) : List (Option α) → List β
  | [] => []
  | m :: moments =>
    match poll ⟨m :: moments, closed⟩ with
    | .ready (some a) => (body a).toList ++ loop body closed moments
    | .ready none => []
    | .pending => loop body closed moments

end Source

/-- One poll of a stream: the answer of the source, and the answer of the stream. -/
structure Polled (α β : Type) where
  source : Poll (Option α)
  stream : Poll (Option β)

def Polled.again (p : Polled α β) : Bool :=
  match p.source, p.stream with
  | _, .ready (some _) => true
  | _, .ready none => false
  | .pending, .pending => true
  | .ready _, .pending => false

def Polled.item (p : Polled α β) : Option β :=
  match p.stream with
  | .ready (some b) => some b
  | _ => none

variable (answer : Poll (Option α) → Poll (Option β)) (closed : Bool)

/-- A poll of the stream whose answer to the source's answer is `answer`. -/
def Source.polled (s : Source α) : Polled α β := ⟨s.poll, answer s.poll⟩

def polls : List (Option α) → List (Polled α β)
  | [] => [Source.polled answer ⟨[], closed⟩]
  | m :: moments =>
    let p := Source.polled answer ⟨m :: moments, closed⟩
    p :: if p.again then polls moments else []

def yields (moments : List (Option α)) : List β :=
  (polls answer closed moments).filterMap Polled.item

/-- No poll of the task finds the stream pending unless the source was. -/
def Awaited (moments : List (Option α)) : Prop :=
  ∀ p ∈ polls answer closed moments, p.stream = .pending → p.source = .pending

/-- A stream of the items of a source that `f` reads something from: the end and the
gaps of the source are its own, and it is pending at an item that `f` passes over. -/
structure Passes (f : α → Option β) : Prop where
  ends : answer (.ready none) = .ready none
  waits : answer .pending = .pending
  reads : ∀ a, answer (.ready (some a)) = (f a).elim .pending fun b => .ready (some b)

namespace Passes

variable {answer} {f : α → Option β} (h : Passes answer f) (moments : List (Option α))
include h

theorem polls_none : polls answer closed (none :: moments) =
    ⟨.pending, .pending⟩ :: polls answer closed moments := by
  simp [polls, Source.polled, Source.poll, h.waits, Polled.again]

theorem polls_some {a : α} {b : β} (hb : f a = some b) :
    polls answer closed (some a :: moments) =
      ⟨.ready (some a), .ready (some b)⟩ :: polls answer closed moments := by
  simp [polls, Source.polled, Source.poll, h.reads, hb, Polled.again]

theorem polls_passed {a : α} (ha : f a = none) :
    polls answer closed (some a :: moments) = [⟨.ready (some a), .pending⟩] := by
  simp [polls, Source.polled, Source.poll, h.reads, ha, Polled.again]

theorem yields_nil : yields answer closed [] = [] := by
  cases closed <;>
    simp [yields, polls, Source.polled, Source.poll, h.ends, h.waits, Polled.item]

theorem yields_eq : yields answer closed moments =
    (moments.reduceOption.takeWhile fun a => (f a).isSome).filterMap f := by
  induction moments with
  | nil => rw [h.yields_nil]; rfl
  | cons m moments ih =>
    unfold yields at ih ⊢
    cases m with
    | none =>
      rw [h.polls_none, List.reduceOption_cons_of_none, ← ih]
      rfl
    | some a =>
      rw [List.reduceOption_cons_of_some]
      cases hb : f a with
      | none => simp [h.polls_passed closed moments hb, hb, Polled.item]
      | some b => simp [h.polls_some closed moments hb, hb, ih, Polled.item]

/-- Every pending poll is the source's own if and only if no item is passed over. -/
theorem awaited_iff : Awaited answer closed moments ↔
    ∀ a ∈ moments.reduceOption, (f a).isSome := by
  induction moments with
  | nil =>
    cases closed <;> simp [Awaited, polls, Source.polled, Source.poll, h.ends, h.waits]
  | cons m moments ih =>
    unfold Awaited at ih ⊢
    cases m with
    | none => simp [h.polls_none, ih, List.reduceOption_cons_of_none]
    | some a =>
      cases hb : f a with
      | none => simp [h.polls_passed closed moments hb, hb, List.reduceOption_cons_of_some]
      | some b =>
        simp [h.polls_some closed moments hb, hb, ih, List.reduceOption_cons_of_some]

end Passes

theorem Source.loop_eq (body : α → Option β) (moments : List (Option α)) :
    loop body closed moments = moments.reduceOption.filterMap body := by
  induction moments with
  | nil => rfl
  | cons m moments ih =>
    cases m with
    | none => simp [loop, poll, ih, List.reduceOption_cons_of_none]
    | some a =>
      cases hb : body a <;>
        simp [loop, poll, ih, hb, List.reduceOption_cons_of_some]

end Conc
