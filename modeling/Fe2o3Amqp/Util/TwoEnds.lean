import Fe2o3Amqp.Util.Run
import Mathlib.Logic.Function.Basic

/-!
# Two machines joined by ordered links

Two copies of an event-driven machine write frames to each other.  A link loses no frame and keeps
their order, but a frame may travel for any time.  What holds of one machine alone is carried over to
the two of them: each has made a run of its own, and took what the other one wrote, in that order.
-/

namespace TwoEnds

inductive DuplexSide where
  | near | far
deriving DecidableEq, Repr

def DuplexSide.other : DuplexSide → DuplexSide
  | .near => .far
  | .far => .near

@[simp] theorem DuplexSide.other_other (side : DuplexSide) : side.other.other = side := by
  cases side <;> rfl

theorem DuplexSide.other_ne (side : DuplexSide) : side.other ≠ side := by
  cases side <;> simp [DuplexSide.other]

variable {State Event Frame Choice : Type*}

/-- The machines, the frames that travel to each of them, and the events that each has taken. -/
structure Duplex (State Event Frame : Type*) where
  machine : DuplexSide → State
  inFlight : DuplexSide → List Frame
  history : DuplexSide → List Event

/-- What happens at a side: an event of its own, or the arrival of the next frame. -/
inductive DuplexEvent (Event Choice : Type*) where
  | acts (side : DuplexSide) (event : Event)
  | arrives (side : DuplexSide) (choice : Choice)

variable (step : State → Event → State × List Frame) (incoming : Frame → Choice → Event)
  (frameOf : Event → Option Frame)

namespace Duplex

def start (machine : DuplexSide → State) : Duplex State Event Frame :=
  ⟨machine, fun _ => [], fun _ => []⟩

/-- A side takes an event; what it writes travels to the other one. -/
def take (duplex : Duplex State Event Frame) (side : DuplexSide) (event : Event) :
    Duplex State Event Frame where
  machine := Function.update duplex.machine side (step (duplex.machine side) event).1
  inFlight :=
    Function.update duplex.inFlight side.other
      (duplex.inFlight side.other ++ (step (duplex.machine side) event).2)
  history := Function.update duplex.history side (duplex.history side ++ [event])

/-- A frame reaches a side by its link only. -/
def next (duplex : Duplex State Event Frame) : DuplexEvent Event Choice → Duplex State Event Frame
  | .acts side event => if (frameOf event).isSome then duplex else duplex.take step side event
  | .arrives side choice =>
      match duplex.inFlight side with
      | [] => duplex
      | frame :: rest =>
          take step { duplex with inFlight := Function.update duplex.inFlight side rest } side
            (incoming frame choice)

def run (duplex : Duplex State Event Frame) (events : List (DuplexEvent Event Choice)) :
    Duplex State Event Frame :=
  events.foldl (next step incoming frameOf) duplex

/-- Each machine has made a run of its own, and the frames that it took, with those that still travel
to it, are what the other one wrote. -/
structure Joined (machine : DuplexSide → State) (duplex : Duplex State Event Frame) : Prop where
  machine_eq : ∀ side, duplex.machine side = (Run.run step (machine side) (duplex.history side)).1
  link_eq : ∀ side, (duplex.history side).filterMap frameOf ++ duplex.inFlight side =
    (Run.run step (machine side.other) (duplex.history side.other)).2

variable {step incoming frameOf} {machine : DuplexSide → State} {duplex : Duplex State Event Frame}

theorem joined_start : Joined step frameOf machine (start machine) :=
  ⟨fun _ => rfl, fun _ => rfl⟩

/-- The event takes the frames `taken` from the link of the side. -/
theorem Joined.take (h : Joined step frameOf machine duplex) {side : DuplexSide} {event : Event}
    {taken rest : List Frame} (htaken : (frameOf event).toList = taken)
    (hlink : duplex.inFlight side = taken ++ rest) :
    Joined step frameOf machine
      (Duplex.take step { duplex with inFlight := Function.update duplex.inFlight side rest } side
        event) := by
  constructor
  · intro side'
    by_cases hside : side' = side
    · subst hside
      simp only [Duplex.take, Function.update_self, Run.run_snoc]
      rw [← h.machine_eq]
    · simp only [Duplex.take, Function.update_of_ne hside]
      exact h.machine_eq side'
  · intro side'
    have hcases : side' = side ∨ side' = side.other := by
      cases side <;> cases side' <;> simp [DuplexSide.other]
    rcases hcases with rfl | rfl
    · -- the side itself takes the frames and leaves the rest
      simp only [Duplex.take, Function.update_self, Function.update_of_ne (DuplexSide.other_ne _),
        Function.update_of_ne (DuplexSide.other_ne _).symm]
      have hevent : List.filterMap frameOf [event] = taken := by
        rw [← htaken]
        cases hframe : frameOf event <;> simp [hframe]
      rw [← h.link_eq, hlink, List.filterMap_append, hevent, List.append_assoc]
    · simp only [Duplex.take, Function.update_self, Function.update_of_ne (DuplexSide.other_ne _),
        DuplexSide.other_other, Run.run_snoc]
      rw [← List.append_assoc, h.link_eq, DuplexSide.other_other, h.machine_eq]

theorem Joined.next (h : Joined step frameOf machine duplex)
    (hincoming : ∀ frame choice, frameOf (incoming frame choice) = some frame)
    (event : DuplexEvent Event Choice) :
    Joined step frameOf machine (duplex.next step incoming frameOf event) := by
  cases event with
  | acts side event =>
      simp only [Duplex.next]
      split
      · exact h
      · next hnone =>
          have hframe : (frameOf event).toList = [] := by
            rw [Option.not_isSome_iff_eq_none.mp hnone]
            rfl
          have hnext := h.take hframe (List.nil_append (duplex.inFlight side)).symm
          rwa [Function.update_eq_self] at hnext
  | arrives side choice =>
      simp only [Duplex.next]
      split
      · exact h
      · next frame rest hlink =>
          have hframe : (frameOf (incoming frame choice)).toList = [frame] := by
            rw [hincoming]
            rfl
          exact h.take hframe hlink

/-- In every interleaving the two machines stay joined. -/
theorem joined_run (incoming : Frame → Choice → Event)
    (hincoming : ∀ frame choice, frameOf (incoming frame choice) = some frame)
    (machine : DuplexSide → State) (events : List (DuplexEvent Event Choice)) :
    Joined step frameOf machine ((start machine).run step incoming frameOf events) := by
  induction events using List.reverseRecOn with
  | nil => exact joined_start
  | append_singleton events event ih =>
      simp only [run, List.foldl_append]
      exact ih.next hincoming event

/-- A frame that one machine took has been written by the other one. -/
theorem Joined.mem_written (h : Joined step frameOf machine duplex) {side : DuplexSide}
    {frame : Frame} (hmem : frame ∈ (duplex.history side).filterMap frameOf) :
    frame ∈ (Run.run step (machine side.other) (duplex.history side.other)).2 :=
  h.link_eq side ▸ List.mem_append_left _ hmem

end Duplex

end TwoEnds
