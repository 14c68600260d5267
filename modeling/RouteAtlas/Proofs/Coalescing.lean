import RouteAtlas.Proofs.Scan
import RouteAtlas.Watch

/-!
# Coalescing of changes

A watcher that waits delivers, of several changes of one path, the last at the place of the first
(`Coalesces`). `Book` is written beside a run: which changes were accepted, and which of them were
asked for together. After every run what was delivered and what waits stand for what the book says
(`Watcher.run_coalesces`).
-/

namespace RouteAtlas.Watch

/-- `batch` says of each changed path once how it was changed last, in the order in which the paths
were first changed. -/
structure Coalesces (changes batch : List FileChange) : Prop where
  distinct : (batch.map FileChange.path).Nodup
  mem_paths : ∀ path, path ∈ batch.map FileChange.path ↔ path ∈ changes.map FileChange.path
  ordered : (batch.map FileChange.path).Pairwise fun a b =>
    (changes.map FileChange.path).idxOf a < (changes.map FileChange.path).idxOf b
  last : ∀ change ∈ batch, ∃ before after, changes = before ++ change :: after ∧
    ∀ later ∈ after, later.path ≠ change.path

/-- A change as a binding of its path. -/
def FileChange.pair (change : FileChange) : String × ChangeKind := (change.path, change.kind)

/-- What waits after some changes of an empty table. -/
def coalesced (changes : List FileChange) : List FileChange :=
  (Table.ofList (changes.map FileChange.pair)).entries.map fun p => ⟨p.1, p.2⟩

theorem paths_coalesced (changes : List FileChange) :
    (coalesced changes).map FileChange.path = (changes.map FileChange.path).eraseDups := by
  have hkeys := Table.keys_ofList (changes.map FileChange.pair)
  rw [List.map_map] at hkeys
  rw [coalesced, List.map_map]
  exact hkeys

theorem coalesced_eq_nil_iff {changes : List FileChange} : coalesced changes = [] ↔ changes = [] := by
  rw [← List.map_eq_nil_iff (f := FileChange.path), paths_coalesced]
  cases changes with
  | nil => simp
  | cons change rest => simp [List.eraseDups_cons]

theorem coalesces_coalesced (changes : List FileChange) : Coalesces changes (coalesced changes) := by
  have hpaths := paths_coalesced changes
  constructor
  · rw [hpaths]
    exact nodup_eraseDups _
  · intro path
    rw [hpaths, List.mem_eraseDups]
  · rw [hpaths]
    exact pairwise_idxOf_eraseDups _
  · intro change hchange
    obtain ⟨⟨path, kind⟩, hentry, rfl⟩ := List.mem_map.mp hchange
    have hget := Table.get?_eq_some_iff.mpr hentry
    rw [Table.get?_ofList] at hget
    obtain ⟨before, after, hsplit, hafter⟩ := Table.lastValue_eq_some_iff.mp hget
    obtain ⟨before', rest, rfl, rfl, hrest⟩ := List.map_eq_append_iff.mp hsplit
    obtain ⟨change, after', rfl, hpair, rfl⟩ := List.map_eq_cons_iff.mp hrest
    obtain ⟨rfl, rfl⟩ := Prod.mk.injEq .. ▸ hpair
    refine ⟨before', after', rfl, fun later hlater => ?_⟩
    exact hafter later.pair (List.mem_map_of_mem hlater)

/-- The owner fails at most in an ordinary way. -/
def Handling.Ordinary {σ : Type} (h : Handling σ) : Prop :=
  ∀ s batch f, (h.deliver s batch).2.2 = .error f → f.isFatal = false

namespace Collector

variable {σ : Type} {h : Handling σ} {c : Collector σ}

/-- The changes of an event that are accepted, up to the first path about which the owner fails. -/
def heard (h : Handling σ) (c : Collector σ) : List FileChange → List FileChange
  | [] => []
  | change :: rest =>
    match c.wants h change.path with
    | .error _ => []
    | .ok false => heard h c rest
    | .ok true => change :: heard h (c.note h change).1 rest

/-! ## Delivering -/

theorem hand_fst (h : Handling σ) (c : Collector σ) (batch : List FileChange) :
    (c.hand h batch).1 = { c with
      world := (h.deliver c.world batch).1
      delivered := batch :: c.delivered
      log := (c.hand h batch).1.log } := by
  rcases hdeliver : h.deliver c.world batch with ⟨world, messages, outcome⟩
  simp only [hand, hdeliver]
  cases outcome with
  | ok u => rfl
  | error f =>
    dsimp only
    split <;> rfl

/-- A batch is handed over without a fault, unless the owner asks to stop. -/
theorem hand_snd (hh : h.Ordinary) (c : Collector σ) (batch : List FileChange) :
    (c.hand h batch).2 = .ok () := by
  have hordinary := hh c.world batch
  rcases hdeliver : h.deliver c.world batch with ⟨world, messages, outcome⟩
  rw [hdeliver] at hordinary
  simp only [hand, hdeliver]
  cases outcome with
  | ok u => rfl
  | error f =>
    have hf : f.isFatal = false := hordinary f rfl
    simp [hf]

/-- What waits is handed over once, if anything does, and then nothing waits. -/
theorem flush_fst (h : Handling σ) (c : Collector σ) : (c.flush h).1 = { c.cancel with
    world := if c.waiting = [] then c.world else (h.deliver c.world c.waiting).1
    delivered := if c.waiting = [] then c.delivered else c.waiting :: c.delivered
    log := (c.flush h).1.log } := by
  cases hwaiting : c.waiting with
  | nil =>
    rw [flush, hwaiting]
    rfl
  | cons change rest =>
    have hflush : (c.flush h).1 = (c.cancel.hand h (change :: rest)).1 := by
      rw [flush, hwaiting]
    rw [hflush, hand_fst]
    rfl

theorem flush_snd (hh : h.Ordinary) (c : Collector σ) : (c.flush h).2 = .ok c.waiting := by
  cases hwaiting : c.waiting with
  | nil => rw [flush, hwaiting]
  | cons change rest =>
    have hflush : (c.flush h).2 = (c.cancel.hand h (change :: rest)).2.map fun () => change :: rest := by
      rw [flush, hwaiting]
    rw [hflush, hand_snd hh]
    rfl

/-! ## Hearing of changes -/

/-- The collector with a change that waits. -/
def keep (c : Collector σ) (change : FileChange) : Collector σ :=
  { c with pending := c.pending.put change.path change.kind }

variable {change : FileChange} {f : Fault}

theorem note_of_error (hwants : c.wants h change.path = .error f) : c.note h change = (c, .error f) := by
  rw [note, hwants]

theorem note_of_unwanted (hwants : c.wants h change.path = .ok false) :
    c.note h change = (c, .ok ()) := by
  rw [note, hwants]

/-- A collector that waits keeps what it wants to hear of, and starts its timer. -/
theorem note_of_waiting (hi : h.immediate = false) (hwants : c.wants h change.path = .ok true) :
    c.note h change = ({ c.keep change with armed := true }, .ok ()) := by
  simp [note, hwants, hi, keep]

/-- A collector that does not wait delivers what it wants to hear of. -/
theorem note_of_immediate (hh : h.Ordinary) (hi : h.immediate = true)
    (hwants : c.wants h change.path = .ok true) :
    c.note h change = (((c.keep change).flush h).1, .ok ()) := by
  have hok : ((c.keep change).flush h).2 = .ok (c.keep change).waiting := flush_snd hh _
  have hmap : (((c.keep change).flush h).2.map fun _ => ()) = .ok () := by
    rw [hok]
    rfl
  simp only [note, hwants, hi, if_true]
  exact Prod.ext rfl hmap

theorem noteAll_of_error (hnote : c.note h change = (c, .error f)) (rest : List FileChange) :
    c.noteAll h (change :: rest) = (c, .error f) := by
  rw [noteAll, hnote]

theorem noteAll_of_ok (hnote : (c.note h change).2 = .ok ()) (rest : List FileChange) :
    c.noteAll h (change :: rest) = (c.note h change).1.noteAll h rest := by
  rcases hresult : c.note h change with ⟨c', result⟩
  rw [hresult] at hnote
  cases hnote
  rw [noteAll, hresult]

/-- After some changes a collector that waits holds those that it has accepted, and its timer runs if
there are any. -/
theorem noteAll_of_waiting (hi : h.immediate = false) (changes : List FileChange) (c : Collector σ) :
    (c.noteAll h changes).1 = { c with
      pending := c.pending.putAll ((c.heard h changes).map FileChange.pair)
      armed := c.armed || !(c.heard h changes).isEmpty } := by
  induction changes generalizing c with
  | nil =>
    rw [heard, noteAll, List.isEmpty_nil, Bool.not_true, Bool.or_false]
    rfl
  | cons change rest ih =>
    rw [heard]
    cases hwants : c.wants h change.path with
    | error f =>
      rw [noteAll_of_error (note_of_error hwants)]
      simp [Table.putAll]
    | ok accepted =>
      cases accepted with
      | false =>
        have hnote := note_of_unwanted hwants
        rw [noteAll_of_ok (congrArg Prod.snd hnote), hnote]
        exact ih c
      | true =>
        have hnote := note_of_waiting hi hwants
        rw [noteAll_of_ok (congrArg Prod.snd hnote), hnote, ih]
        simp [keep, Table.putAll_cons, FileChange.pair]

/-- Nothing waits, and no timer runs. -/
def Idle (c : Collector σ) : Prop := c.pending = .empty ∧ c.armed = false

/-- A collector that does not wait delivers each change that it accepts by itself. -/
theorem noteAll_of_immediate (hh : h.Ordinary) (hi : h.immediate = true)
    (changes : List FileChange) {c : Collector σ} (hc : c.Idle) :
    (c.noteAll h changes).1.Idle ∧ (c.noteAll h changes).1.delivered =
      ((c.heard h changes).map fun change => [change]).reverse ++ c.delivered := by
  induction changes generalizing c with
  | nil => exact ⟨hc, rfl⟩
  | cons change rest ih =>
    rw [heard]
    cases hwants : c.wants h change.path with
    | error f =>
      rw [noteAll_of_error (note_of_error hwants)]
      exact ⟨hc, rfl⟩
    | ok accepted =>
      cases accepted with
      | false =>
        have hnote := note_of_unwanted hwants
        rw [noteAll_of_ok (congrArg Prod.snd hnote), hnote]
        exact ih hc
      | true =>
        have hnote := note_of_immediate hh hi hwants
        -- nothing else waits, so that the change is all that is delivered
        have hwaiting : (c.keep change).waiting = [change] := by
          show (c.pending.put change.path change.kind).entries.map _ = _
          rw [hc.1]
          rfl
        have hidle : ((c.keep change).flush h).1.Idle := by
          rw [flush_fst]
          exact ⟨rfl, rfl⟩
        have hdelivered : ((c.keep change).flush h).1.delivered = [change] :: c.delivered := by
          rw [flush_fst, hwaiting]
          rfl
        rw [noteAll_of_ok (congrArg Prod.snd hnote), hnote]
        obtain ⟨hrest, hall⟩ := ih hidle
        refine ⟨hrest, ?_⟩
        rw [hall, hdelivered]
        simp

end Collector

namespace Watcher

variable {σ : Type}

/-! ## Runs -/

/-- What happens to a watcher. -/
inductive Happening (σ : Type) where
  | event (e : Event)
  /-- Time is up, or somebody asks for what waits. -/
  | flush
  | cancel
  | start
  | stop
  /-- The world changes. -/
  | world (change : σ → σ)

/-- The watcher after something has happened to it. -/
def after (w : Watcher σ) : Happening σ → Watcher σ
  | .event e => { w with collector := (w.collector.hear w.handling e).1 }
  | .flush => { w with collector := (w.collector.flush w.handling).1 }
  | .cancel => { w with collector := w.collector.cancel }
  | .start => w.start.1
  | .stop => w.stop.1
  | .world change =>
    { w with collector := { w.collector with world := change w.collector.world } }

/-- The watcher after all that has happened to it. -/
def run (w : Watcher σ) (happenings : List (Happening σ)) : Watcher σ := happenings.foldl after w

/-- The accepted changes of a run. -/
structure Book where
  /-- All of them, in order. -/
  accepted : List FileChange := []
  /-- Those that were asked for, together with those that were asked for at the same time. -/
  batches : List (List FileChange) := []
  /-- Those that came since changes were last asked for or dropped. -/
  since : List FileChange := []

/-- The book after something has happened to the watcher. -/
def Book.after (b : Book) (w : Watcher σ) : Happening σ → Book
  | .event e =>
    let heard := w.collector.heard w.handling e.changes
    { b with accepted := b.accepted ++ heard, since := b.since ++ heard }
  | .flush =>
    { b with batches := if b.since = [] then b.batches else b.batches ++ [b.since], since := [] }
  | .cancel => { b with since := [] }
  | .stop => if w.running then { b with since := [] } else b
  | .start => b
  | .world _ => b

/-- The book of a run, begun with `b`. -/
def book (w : Watcher σ) (b : Book) : List (Happening σ) → Book
  | [] => b
  | happening :: rest => (w.after happening).book (b.after w happening) rest

/-- A watcher that has heard of nothing yet. -/
def new (h : Handling σ) (root : Path) (recursive : Bool) (world : σ) : Watcher σ :=
  { root, recursive, handling := h, collector := { world } }

/-- What a watcher that waits has done with the changes that it has accepted. -/
structure Coalesced (w : Watcher σ) (b : Book) : Prop where
  /-- What waits stands for the changes since changes were last asked for or dropped. -/
  waiting : Coalesces b.since w.collector.waiting
  /-- Each batch delivered stands for the changes that were asked for together. -/
  delivered : List.Forall₂ Coalesces b.batches w.collector.delivered.reverse
  /-- A timer runs if and only if something waits. -/
  armed : w.collector.armed = true ↔ w.collector.waiting ≠ []
  /-- Asking for what waits gives it, whatever the owner does with it. -/
  flushes : (w.collector.flush w.handling).2 = .ok w.collector.waiting
  /-- The owner is called with it once, or not at all if nothing waits. -/
  handed : (w.collector.flush w.handling).1.world =
    if w.collector.waiting = [] then w.collector.world
    else (w.handling.deliver w.collector.world w.collector.waiting).1
  /-- Nothing else calls the owner. -/
  kept : ∀ e, (w.after (.event e)).collector.world = w.collector.world

/-- What a watcher that does not wait has done with the changes that it has accepted. -/
structure Prompt (w : Watcher σ) (b : Book) : Prop where
  /-- Each was delivered by itself. -/
  delivered : w.collector.delivered.reverse = b.accepted.map fun change => [change]
  /-- The changes of an event are delivered before the event is over. -/
  immediate : ∀ e, (w.after (.event e)).collector.delivered.reverse =
    w.collector.delivered.reverse ++
      (w.collector.heard w.handling e.changes).map fun change => [change]
  waiting : w.collector.waiting = []
  armed : w.collector.armed = false

theorem handling_after (w : Watcher σ) (happening : Happening σ) :
    (w.after happening).handling = w.handling := by
  cases happening with
  | start =>
    rw [after, start]
    split <;> rfl
  | stop =>
    rw [after, stop]
    split <;> rfl
  | event e => rfl
  | flush => rfl
  | cancel => rfl
  | world change => rfl

theorem collector_start (w : Watcher σ) : w.start.1.collector = w.collector := by
  rw [start]
  split <;> rfl

theorem collector_stop (w : Watcher σ) :
    w.stop.1.collector = if w.running then w.collector.cancel else w.collector := by
  rw [stop]
  split <;> rfl

/-- What every step keeps of a watcher and its book holds after the whole run. -/
theorem run_induction {P : Watcher σ → Book → Prop}
    (hstep : ∀ w b happening, P w b → P (w.after happening) (b.after w happening))
    (happenings : List (Happening σ)) {w : Watcher σ} {b : Book} (hw : P w b) :
    P (w.run happenings) (w.book b happenings) := by
  induction happenings generalizing w b with
  | nil => exact hw
  | cons happening rest ih => exact ih (hstep w b happening hw)

/-! ## Watchers that wait -/

/-- How a watcher that waits stands beside its book. -/
structure Waits (h : Handling σ) (w : Watcher σ) (b : Book) : Prop where
  handling : w.handling = h
  pending : w.collector.pending = .ofList (b.since.map FileChange.pair)
  armed : w.collector.armed = !b.since.isEmpty
  delivered : w.collector.delivered.reverse = b.batches.map coalesced

namespace Waits

variable {h : Handling σ} {w : Watcher σ} {b : Book}

theorem waiting (hw : Waits h w b) : w.collector.waiting = coalesced b.since := by
  rw [Collector.waiting, hw.pending]
  rfl

/-- A watcher may forget what waits, if its book does. -/
theorem cancel (hw : Waits h w b) : Waits h { w with collector := w.collector.cancel }
    { b with since := [] } :=
  ⟨hw.handling, rfl, rfl, hw.delivered⟩

theorem event (hw : Waits h w b) (hi : h.immediate = false) (e : Event) :
    Waits h (w.after (.event e)) (b.after w (.event e)) := by
  have hnoted := Collector.noteAll_of_waiting hi e.changes w.collector
  have hcollector : (w.after (.event e)).collector = (w.collector.noteAll h e.changes).1 := by
    rw [← hw.handling]
    rfl
  have hbook : b.after w (.event e) = { b with
      accepted := b.accepted ++ w.collector.heard h e.changes
      since := b.since ++ w.collector.heard h e.changes } := by
    rw [← hw.handling]
    rfl
  rw [hbook]
  refine ⟨hw.handling, ?_, ?_, ?_⟩
  · rw [hcollector, hnoted, hw.pending, List.map_append, Table.ofList, Table.ofList,
      Table.putAll_append]
  · rw [hcollector, hnoted, hw.armed]
    cases b.since <;> simp
  · rw [hcollector, hnoted]
    exact hw.delivered

theorem flush (hw : Waits h w b) : Waits h (w.after .flush) (b.after w .flush) := by
  have hcollector : (w.after .flush).collector = (w.collector.flush h).1 := by
    rw [← hw.handling]
    rfl
  refine ⟨hw.handling, ?_, ?_, ?_⟩
  · rw [hcollector, Collector.flush_fst]
    rfl
  · rw [hcollector, Collector.flush_fst]
    rfl
  · rw [hcollector, Collector.flush_fst, hw.waiting]
    show (if coalesced b.since = [] then w.collector.delivered
      else coalesced b.since :: w.collector.delivered).reverse =
        (if b.since = [] then b.batches else b.batches ++ [b.since]).map coalesced
    by_cases hsince : b.since = []
    · rw [if_pos (coalesced_eq_nil_iff.mpr hsince), if_pos hsince]
      exact hw.delivered
    · rw [if_neg fun hnil => hsince (coalesced_eq_nil_iff.mp hnil), if_neg hsince,
        List.reverse_cons, hw.delivered, List.map_append]
      rfl

theorem after (hi : h.immediate = false) (w : Watcher σ) (b : Book) (happening : Happening σ)
    (hw : Waits h w b) : Waits h (w.after happening) (b.after w happening) := by
  cases happening with
  | event e => exact hw.event hi e
  | flush => exact hw.flush
  | cancel => exact hw.cancel
  | start =>
    have hcollector := collector_start w
    refine ⟨(handling_after w .start).trans hw.handling, ?_, ?_, ?_⟩
    · exact (congrArg Collector.pending hcollector).trans hw.pending
    · exact (congrArg Collector.armed hcollector).trans hw.armed
    · exact (congrArg (·.delivered.reverse) hcollector).trans hw.delivered
  | stop =>
    by_cases hr : w.running = true
    · have hstop : w.after .stop = { w with running := false, collector := w.collector.cancel } := by
        simp [Watcher.after, Watcher.stop, hr]
      have hbook : b.after w .stop = { b with since := [] } := by simp [Book.after, hr]
      rw [hstop, hbook]
      exact ⟨hw.handling, rfl, rfl, hw.delivered⟩
    · have hstop : w.after .stop = w := by simp [Watcher.after, Watcher.stop, hr]
      have hbook : b.after w .stop = b := by simp [Book.after, hr]
      rw [hstop, hbook]
      exact hw
  | world change => exact ⟨hw.handling, hw.pending, hw.armed, hw.delivered⟩

theorem coalesced (hh : h.Ordinary) (hi : h.immediate = false) (hw : Waits h w b) :
    Coalesced w b := by
  have hwaiting := hw.waiting
  have hordinary : w.handling.Ordinary := by
    rw [hw.handling]
    exact hh
  constructor
  · rw [hwaiting]
    exact coalesces_coalesced b.since
  · rw [hw.delivered, List.forall₂_map_right_iff, List.forall₂_same]
    exact fun changes _ => coalesces_coalesced changes
  · rw [hwaiting, hw.armed, ne_eq, coalesced_eq_nil_iff]
    cases b.since <;> simp
  · exact Collector.flush_snd hordinary w.collector
  · rw [Collector.flush_fst]
  · intro e
    show (w.collector.noteAll w.handling e.changes).1.world = _
    rw [hw.handling, Collector.noteAll_of_waiting hi]

end Waits

/-! ## Watchers that do not wait -/

/-- How a watcher that does not wait stands beside its book. -/
structure Delivers (h : Handling σ) (w : Watcher σ) (b : Book) : Prop where
  handling : w.handling = h
  idle : w.collector.Idle
  delivered : w.collector.delivered.reverse = b.accepted.map fun change => [change]

namespace Delivers

variable {h : Handling σ} {w : Watcher σ} {b : Book}

theorem waiting (hw : Delivers h w b) : w.collector.waiting = [] := by
  rw [Collector.waiting, hw.idle.1]
  rfl

theorem event (hh : h.Ordinary) (hi : h.immediate = true) (hw : Delivers h w b) (e : Event) :
    (w.after (.event e)).collector.Idle ∧ (w.after (.event e)).collector.delivered.reverse =
      w.collector.delivered.reverse ++
        (w.collector.heard w.handling e.changes).map fun change => [change] := by
  obtain ⟨hidle, hdelivered⟩ := Collector.noteAll_of_immediate hh hi e.changes hw.idle
  have hcollector : (w.after (.event e)).collector = (w.collector.noteAll h e.changes).1 := by
    rw [← hw.handling]
    rfl
  rw [hcollector, hw.handling]
  refine ⟨hidle, ?_⟩
  rw [hdelivered, List.reverse_append, List.reverse_reverse]

theorem after (hh : h.Ordinary) (hi : h.immediate = true) (w : Watcher σ) (b : Book)
    (happening : Happening σ) (hw : Delivers h w b) :
    Delivers h (w.after happening) (b.after w happening) := by
  have hhandling := (handling_after w happening).trans hw.handling
  cases happening with
  | event e =>
    obtain ⟨hidle, hdelivered⟩ := hw.event hh hi e
    refine ⟨hhandling, hidle, ?_⟩
    rw [hdelivered, hw.delivered]
    exact List.map_append.symm
  | flush =>
    have hflush : (w.after .flush).collector = w.collector.cancel := by
      show (w.collector.flush w.handling).1 = _
      rw [Collector.flush, hw.waiting]
    refine ⟨hhandling, ?_, ?_⟩
    · rw [hflush]
      exact ⟨rfl, rfl⟩
    · rw [hflush]
      exact hw.delivered
  | cancel => exact ⟨hhandling, ⟨rfl, rfl⟩, hw.delivered⟩
  | start =>
    have hcollector := collector_start w
    refine ⟨hhandling, ?_, ?_⟩
    · show w.start.1.collector.Idle
      rw [hcollector]
      exact hw.idle
    · show w.start.1.collector.delivered.reverse = _
      rw [hcollector]
      exact hw.delivered
  | stop =>
    have hcollector := collector_stop w
    refine ⟨hhandling, ?_, ?_⟩
    · show w.stop.1.collector.Idle
      rw [hcollector]
      split
      · exact ⟨rfl, rfl⟩
      · exact hw.idle
    · show w.stop.1.collector.delivered.reverse = (b.after w .stop).accepted.map _
      rw [hcollector, Book.after]
      split <;> exact hw.delivered
  | world change => exact ⟨hhandling, hw.idle, hw.delivered⟩

theorem prompt (hh : h.Ordinary) (hi : h.immediate = true) (hw : Delivers h w b) : Prompt w b :=
  ⟨hw.delivered, fun e => (hw.event hh hi e).2, hw.waiting, hw.idle.2⟩

end Delivers

/-- Whatever happens to a watcher, and however its owner fails: one that waits has delivered, and still
keeps, one change for each path of each part of the run, and one that does not wait has delivered
every change by itself. -/
theorem run_coalesces {h : Handling σ} (hh : h.Ordinary) (root : Path) (recursive : Bool) (world : σ)
    (happenings : List (Happening σ)) :
    let w := new h root recursive world
    (h.immediate = false → Coalesced (w.run happenings) (w.book {} happenings)) ∧
      (h.immediate = true → Prompt (w.run happenings) (w.book {} happenings)) := by
  intro w
  constructor
  · intro hi
    have hnew : Waits h w {} := ⟨rfl, rfl, rfl, rfl⟩
    exact (run_induction (Waits.after hi) happenings hnew).coalesced hh hi
  · intro hi
    have hnew : Delivers h w {} := ⟨rfl, ⟨rfl, rfl⟩, rfl⟩
    exact (run_induction (Delivers.after hh hi) happenings hnew).prompt hh hi

/-- An owner that counts the batches and fails at each of them. -/
def clumsy (immediate : Bool) : Handling Nat where
  filter := { fileName := "urls.py", ignored := ["build"] }
  immediate
  accept _ _ := .ok true
  deliver n _ := (n + 1, [], .error (.missingKey []))

theorem clumsy_ordinary (immediate : Bool) : (clumsy immediate).Ordinary := by
  intro n batch f hf
  cases hf
  rfl

/-- A file is made and moved away, and a file that is not watched changes: two changes are delivered
together, although the owner fails. -/
theorem run_coalesces_clumsy :
    let w := new (clumsy false) ⟨.root, ["p"]⟩ true 0
    let happenings := [.event (.created "/p/urls.py"), .event (.moved "/p/urls.py" "/p/a/urls.py"),
      .event (.modified "/p/build/urls.py"), .flush]
    (clumsy false).Ordinary ∧
      (w.run happenings).collector.delivered =
        [[⟨"/p/urls.py", .deleted⟩, ⟨"/p/a/urls.py", .created⟩]] ∧
      Coalesced (w.run happenings) (w.book {} happenings) :=
  ⟨clumsy_ordinary false, by decide, (run_coalesces (clumsy_ordinary false) _ true 0 _).1 rfl⟩

end Watcher

end RouteAtlas.Watch
