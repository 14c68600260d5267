import Mathlib.Data.List.Basic
import RouteAtlas.Index

/-!
# Rounds in a trace

A trace of an index, newest event first, is orderly when the rounds in it follow one another and each
calls its observers in turn (`Trace.Orderly`). What that says of single rounds is stated of the places
at which a trace can be cut.
-/

namespace RouteAtlas.Trace

variable {ω : Type}

/-! ## Counting -/

/-- Whether an event is the start of a round. -/
def isStart : Event ω → Bool
  | .roundStarted _ => true
  | _ => false

/-- The generation that an event publishes, if it publishes one. -/
def generation? : Event ω → Option Int
  | .published generation => some generation
  | _ => none

/-- The observer that an event calls, if it calls one. -/
def called? : Event ω → Option ω
  | .called observer _ => some observer
  | _ => none

/-- The number of rounds that were started. -/
def rounds (t : List (Event ω)) : Nat := t.countP isStart

/-- The generations that were published, newest first. -/
def generations (t : List (Event ω)) : List Int := t.filterMap generation?

/-- The number of snapshots that were published. -/
def publications (t : List (Event ω)) : Nat := (generations t).length

/-- The observers that were called, newest call first. -/
def calls (t : List (Event ω)) : List ω := t.filterMap called?

@[simp]
theorem rounds_cons (e : Event ω) (t : List (Event ω)) :
    rounds (e :: t) = rounds t + if isStart e then 1 else 0 :=
  List.countP_cons

@[simp]
theorem publications_cons (e : Event ω) (t : List (Event ω)) :
    publications (e :: t) = publications t + if (generation? e).isSome then 1 else 0 := by
  unfold publications generations
  cases h : generation? e with
  | none => rw [List.filterMap_cons_none h]; rfl
  | some g => rw [List.filterMap_cons_some h]; rfl

/-! ## Orderly traces -/

/-- The rounds of a trace are in order, and what is given of the last one: the observers that it has
still to call, or nothing when no round is open. A round may only start when none is open and more
snapshots have been published than rounds were started. -/
inductive Orderly : List (Event ω) → Option (List ω) → Prop
  | nil : Orderly [] none
  | published {t : List (Event ω)} {waiting? : Option (List ω)} (h : Orderly t waiting?) :
      Orderly (.published (publications t + 1) :: t) waiting?
  | roundStarted {t : List (Event ω)} (h : Orderly t none) (hp : rounds t < publications t)
      (observers : List ω) : Orderly (.roundStarted observers :: t) (some observers)
  | called {t : List (Event ω)} {observer : ω} {waiting : List ω}
      (h : Orderly t (some (observer :: waiting))) :
      Orderly (.called observer (publications t) :: t) (some waiting)
  | roundEnded {t : List (Event ω)} (h : Orderly t (some [])) : Orderly (.roundEnded :: t) none
  | roundBroken {t : List (Event ω)} {waiting : List ω} (h : Orderly t (some waiting)) :
      Orderly (.roundBroken :: t) none

namespace Orderly

variable {t later during before : List (Event ω)} {waiting? : Option (List ω)} {observers : List ω}

/-- What came before is orderly, too. -/
theorem of_append (h : Orderly (later ++ t) waiting?) : ∃ waiting?, Orderly t waiting? := by
  induction later generalizing waiting? with
  | nil => exact ⟨waiting?, h⟩
  | cons e later ih =>
    rw [List.cons_append] at h
    cases h with
    | published h => exact ih h
    | roundStarted h hp => exact ih h
    | called h => exact ih h
    | roundEnded h => exact ih h
    | roundBroken h => exact ih h

theorem rounds_le_publications (h : Orderly t waiting?) : rounds t ≤ publications t := by
  induction h with
  | nil => exact Nat.le_refl 0
  | published h ih => simp [isStart, generation?]; omega
  | roundStarted h hp => simp [isStart, generation?]; omega
  | called h ih => simpa [isStart, generation?] using ih
  | roundEnded h ih => simpa [isStart, generation?] using ih
  | roundBroken h ih => simpa [isStart, generation?] using ih

/-- Generations are published one after the other, from the first one on. -/
theorem reverse_generations (h : Orderly t waiting?) :
    (generations t).reverse = (List.range (publications t)).map fun n : Nat => (n : Int) + 1 := by
  induction h with
  | nil => rfl
  | @published t _ h ih =>
    have hcons : generations (.published (publications t + 1) :: t) =
        ((publications t : Int) + 1) :: generations t := rfl
    have hcount : publications (.published (publications t + 1) :: t) = publications t + 1 := rfl
    rw [hcons, List.reverse_cons, ih, hcount, List.range_succ, List.map_append]
    rfl
  | roundStarted h hp observers ih => exact ih
  | called h ih => exact ih
  | roundEnded h ih => exact ih
  | roundBroken h ih => exact ih

/-- When a round starts, fewer rounds have been started than snapshots were published. -/
theorem rounds_lt_of_start (h : Orderly (later ++ .roundStarted observers :: before) waiting?) :
    rounds before < publications before := by
  obtain ⟨_, hstart⟩ := h.of_append
  cases hstart with
  | roundStarted h hp => exact hp

/-- As long as a round has neither ended nor been broken, it is open. -/
theorem ne_none_of_start (hended : .roundEnded ∉ during) (hbroken : .roundBroken ∉ during)
    (h : Orderly (during ++ .roundStarted observers :: before) waiting?) : waiting? ≠ none := by
  induction during generalizing waiting? with
  | nil =>
    cases h with
    | roundStarted h hp => simp
  | cons e during ih =>
    rw [List.mem_cons, not_or] at hended hbroken
    rw [List.cons_append] at h
    cases h with
    | published h => exact ih hended.2 hbroken.2 h
    | roundStarted h hp => simp
    | called h => simp
    | roundEnded h => exact absurd rfl hended.1
    | roundBroken h => exact absurd rfl hbroken.1

/-- Before another round starts, the one before it is over. -/
theorem over_of_start {observers' : List ω}
    (h : Orderly (later ++ .roundStarted observers' :: (during ++ .roundStarted observers :: before))
      waiting?) :
    .roundEnded ∈ during ∨ .roundBroken ∈ during := by
  obtain ⟨_, hstart⟩ := h.of_append
  cases hstart with
  | roundStarted h hp =>
    by_contra hover
    rw [not_or] at hover
    exact ne_none_of_start hover.1 hover.2 h rfl

/-- As long as no other round starts, an open round has called the first of its observers and has
still to call the others. -/
theorem calls_append_of_start (hstart : ∀ os, .roundStarted os ∉ during)
    (h : Orderly (during ++ .roundStarted observers :: before) waiting?) :
    ∀ waiting ∈ waiting?, (calls during).reverse ++ waiting = observers := by
  induction during generalizing waiting? with
  | nil =>
    cases h with
    | roundStarted h hp =>
      rintro waiting ⟨⟩
      rfl
  | cons e during ih =>
    have hstart' : ∀ os, .roundStarted os ∉ during := fun os hmem =>
      hstart os (List.mem_cons_of_mem _ hmem)
    rw [List.cons_append] at h
    cases h with
    | published h => exact ih hstart' h
    | roundStarted h hp => exact absurd List.mem_cons_self (hstart _)
    | @called _ observer waiting h =>
      rintro waiting ⟨⟩
      have hcons : calls (.called observer (publications (during ++ .roundStarted observers :: before))
          :: during) = observer :: calls during := rfl
      rw [hcons, List.reverse_cons, List.append_assoc]
      exact ih hstart' h _ rfl
    | roundEnded h => simp
    | roundBroken h => simp

/-- A round that has ended has called each of its observers once, in order. -/
theorem calls_of_ended (hstart : ∀ os, .roundStarted os ∉ during)
    (h : Orderly (later ++ .roundEnded :: (during ++ .roundStarted observers :: before)) waiting?) :
    (calls during).reverse = observers := by
  obtain ⟨_, hended⟩ := h.of_append
  cases hended with
  | roundEnded h =>
    have hcalls := calls_append_of_start hstart h [] rfl
    rwa [List.append_nil] at hcalls

end Orderly

end RouteAtlas.Trace
