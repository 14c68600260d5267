import RouteAtlas.Proofs.Rescan

/-!
# Whom a rescan calls

Subscriptions are made and cancelled by calls from outside. Which observers a rescan then calls
(`Machine.Tells`) is read off the list of the index. A cancelled subscription is not looked up in this
list: the oldest entry of its observer goes. When that is the same, and when it takes another
subscription away, is settled by where the entries of that observer stand (`Harmless`).
-/

namespace RouteAtlas

variable {σ ω : Type}

/-! ## The calls of one rescan -/

/-- The deed leaves scans alone and does not ask to stop. -/
def Deed.Listens (deed : Deed σ ω) : Prop :=
  deed.Gentle ∧ ∀ paths, deed ≠ .rescan paths

/-- Neither the files nor the observers ask to stop, and no observer asks for a scan. -/
structure World.Listens (w : World σ ω) : Prop where
  gentle : w.Gentle
  respond : ∀ s observer snapshot, ∀ deed ∈ w.respond s observer snapshot, ∀ paths,
    deed ≠ .rescan paths

theorem World.Listens.deeds {w : World σ ω} (hw : w.Listens) (s : σ) (observer : ω)
    (snapshot : Snapshot) : ∀ deed ∈ w.respond s observer snapshot, deed.Listens :=
  fun deed hdeed => ⟨hw.gentle.respond s observer snapshot deed hdeed,
    hw.respond s observer snapshot deed hdeed⟩

namespace Machine

variable {w : World σ ω} {m m' : Machine σ ω}

/-- No rescan is in progress and no round is pending. -/
structure AtRest (m : Machine σ ω) : Prop where
  stack : m.stack = []
  notifying : m.index.notifying = false
  pending : m.index.pending = 0

theorem AtRest.of_quiet (h : AtRest m) (hq : Quiet m m') : AtRest m' :=
  ⟨hq.stack.trans h.stack, hq.notifying.trans h.notifying, hq.pending.trans h.pending⟩

/-- The observers that were called, in order. -/
def heard (m : Machine σ ω) : List ω := (Trace.calls m.trace).reverse

theorem heard_of_trace (h : m'.trace = m.trace) : m'.heard = m.heard := by
  rw [heard, heard, h]

variable [DecidableEq ω]

/-- A rescan from outside calls these observers, one after the other, and returns. -/
def Tells (w : World σ ω) (m : Machine σ ω) (observers : List ω) : Prop :=
  ∀ paths, ∃ enough, ∀ fuel, enough ≤ fuel → (m.rescan w fuel paths).1.stack = [] ∧
    (m.rescan w fuel paths).1.heard = m.heard ++ observers

/-- A deed of an observer that leaves scans alone leads on with its call, or ends it. -/
theorem nextDeed_listens (hw : w.Gentle) (m : Machine σ ω) (token : Request.Token)
    (waiting : List ω) (observer : ω) {deed : Deed σ ω} (deeds : List (Deed σ ω))
    (hdeed : deed.Listens) :
    let frame : Frame σ ω := ⟨token, .call waiting observer (deed :: deeds)⟩
    let m' := m.nextDeed w frame [] waiting observer (deed :: deeds)
    Quiet (m.goOn frame [] (.call waiting observer deeds)) m' ∨
      Quiet (m.goOn frame [] (.round waiting)) m' := by
  intro frame m'
  let before := m.goOn frame [] (.call waiting observer deeds)
  have hquiet : Quiet before (before.perform w deed).1 := quiet_perform w before hdeed.2
  cases hresult : (before.perform w deed).2 with
  | ok u =>
    have hm' : m' = (before.perform w deed).1 := nextDeed_of_ok hresult
    rw [hm']
    exact Or.inl hquiet
  | error f =>
    have hf : f.isFatal = false := Calm.not_fatal_of_perform hw hdeed.1 hresult
    have hm' : m' = if f.isFatal then (before.perform w deed).1.unwind f
        else ((before.perform w deed).1.say (failureMessage w observer f)).goOn frame []
          (.round waiting) := nextDeed_of_error hresult
    rw [hf, if_neg Bool.false_ne_true] at hm'
    obtain ⟨-, htrace, hescaped, hsnapshot, hpending, hnotifying⟩ := hquiet
    refine Or.inr ?_
    rw [hm']
    exact ⟨rfl, htrace, hescaped, hsnapshot, hpending, hnotifying⟩

/-- The call of an observer ends, and nobody else is called meanwhile. -/
theorem settle_call (hw : w.Gentle) {token : Request.Token} {waiting : List ω} {observer : ω}
    {deeds : List (Deed σ ω)} (hs : m.stack = [⟨token, .call waiting observer deeds⟩])
    (hdeeds : ∀ deed ∈ deeds, deed.Listens) :
    ∃ fuel, (settle w fuel m).stack = [⟨token, .round waiting⟩] ∧
      (settle w fuel m).trace = m.trace ∧ (settle w fuel m).index.pending = m.index.pending := by
  induction deeds generalizing m with
  | nil =>
    refine ⟨1, ?_⟩
    rw [settle_succ, settle, step_of_stack hs]
    exact ⟨rfl, rfl, rfl⟩
  | cons deed deeds ih =>
    obtain ⟨hdeed, hdeeds⟩ := List.forall_mem_cons.mp hdeeds
    have hstep : m.step w = m.nextDeed w ⟨token, .call waiting observer (deed :: deeds)⟩ [] waiting
        observer (deed :: deeds) := step_of_stack hs
    rcases nextDeed_listens hw m token waiting observer deeds hdeed with hq | hq
    · rw [← hstep] at hq
      obtain ⟨fuel, hstack, htrace, hpending⟩ := ih hq.stack hdeeds
      refine ⟨fuel + 1, ?_⟩
      rw [settle_succ]
      exact ⟨hstack, htrace.trans hq.trace, hpending.trans hq.pending⟩
    · rw [← hstep] at hq
      refine ⟨1, ?_⟩
      rw [settle_succ, settle]
      exact ⟨hq.stack, hq.trace, hq.pending⟩

/-- A round calls the observers that it has still to call, in order, and ends. -/
theorem settle_round (hw : w.Listens) {token : Request.Token} {waiting : List ω}
    (hs : m.stack = [⟨token, .round waiting⟩]) :
    ∃ fuel, (settle w fuel m).stack = [⟨token, .between⟩] ∧
      (settle w fuel m).heard = m.heard ++ waiting ∧
      (settle w fuel m).index.pending = m.index.pending := by
  induction waiting generalizing m with
  | nil =>
    refine ⟨1, ?_⟩
    rw [settle_succ, settle, step_of_stack hs, List.append_nil]
    exact ⟨rfl, rfl, rfl⟩
  | cons observer waiting ih =>
    have hstep : m.step w =
        m.nextCall w ⟨token, .round (observer :: waiting)⟩ [] (observer :: waiting) :=
      step_of_stack hs
    have hcalled : (m.step w).heard = m.heard ++ [observer] := by
      rw [hstep, heard, heard, ← List.reverse_cons]
      rfl
    have hpending : (m.step w).index.pending = m.index.pending := by
      rw [hstep]
      rfl
    have hstack : (m.step w).stack = [⟨token, .call waiting observer
        (w.respond m.world observer m.index.snapshot)⟩] := by
      rw [hstep]
      rfl
    obtain ⟨during, hstack', htrace', hpending'⟩ :=
      settle_call hw.gentle hstack (hw.deeds m.world observer m.index.snapshot)
    obtain ⟨after, hstack'', hheard'', hpending''⟩ := ih hstack'
    refine ⟨during + after + 1, ?_⟩
    rw [settle_succ, settle_add]
    refine ⟨hstack'', ?_, hpending''.trans (hpending'.trans hpending)⟩
    rw [hheard'', heard_of_trace htrace', hcalled, List.append_assoc]
    rfl

/-- A snapshot that is published while nothing else is going on has one round, which is for the
observers then subscribed. -/
theorem settle_published (hw : w.Listens) {token : Request.Token}
    (hs : m.stack = [⟨token, .published⟩]) (hn : m.index.notifying = false)
    (hp : m.index.pending = 1) :
    ∃ fuel, (settle w fuel m).stack = [] ∧
      (settle w fuel m).heard = m.heard ++ m.index.observers := by
  -- the rescan takes the notification over and starts the round
  obtain ⟨m₁, hm₁⟩ : ∃ m₁, m₁ = (m.step w).step w := ⟨_, rfl⟩
  have hdispatch : m.step w =
      { m with index := { m.index with notifying := true }, stack := [⟨token, .between⟩] } := by
    rw [step_of_stack hs]
    simp [dispatch, hn, goOn]
  have hstart : m₁.stack = [⟨token, .round m.index.observers⟩] ∧ m₁.heard = m.heard ∧
      m₁.index.pending = 0 := by
    rw [hm₁, hdispatch, step]
    simp only [nextRound, hp, goOn]
    exact ⟨trivial, rfl, trivial⟩
  obtain ⟨hstack₁, hheard₁, hpending₁⟩ := hstart
  obtain ⟨fuel, hstack₂, hheard₂, hpending₂⟩ := settle_round hw hstack₁
  -- no other round is pending, so that it returns
  refine ⟨fuel + 2 + 2, ?_⟩
  have hsettle : settle w (fuel + 2 + 2) m = ((settle w fuel m₁).step w).step w := by
    rw [settle_succ, settle_succ, ← hm₁, settle_add, settle_succ, settle_succ, settle]
  generalize settle w fuel m₁ = m₂ at hsettle hstack₂ hheard₂ hpending₂
  have hend : m₂.step w =
      { m₂ with index := { m₂.index with notifying := false }, stack := [⟨token, .returning⟩] } := by
    rw [step_of_stack hstack₂]
    simp [nextRound, hpending₂.trans hpending₁, goOn]
  rw [hsettle, hend, step]
  refine ⟨rfl, ?_⟩
  rw [← hheard₁, ← hheard₂]
  rfl

/-- A rescan calls exactly the observers that the index has in its list, as often as they stand
there. -/
theorem tells_iff (hw : w.Listens) (hm : AtRest m) {observers : List ω} :
    Tells w m observers ↔ observers = m.index.observers := by
  have htold : ∀ paths, ∃ enough, ∀ fuel, enough ≤ fuel → (m.rescan w fuel paths).1.stack = [] ∧
      (m.rescan w fuel paths).1.heard = m.heard ++ m.index.observers := by
    intro paths
    obtain ⟨hok, hpublished, -⟩ := publish_gentle hw.gentle m paths
    obtain ⟨token, hstack⟩ := hpublished.stack
    rw [hm.stack] at hstack
    have hpending : (m.publish w paths).1.index.pending = 1 := by
      rw [hpublished.pending, hm.pending]
    obtain ⟨enough, hrest, hheard⟩ :=
      settle_published hw hstack (hpublished.notifying.trans hm.notifying) hpending
    refine ⟨enough, fun fuel hfuel => ?_⟩
    obtain ⟨more, rfl⟩ := Nat.exists_eq_add_of_le hfuel
    rw [rescan_of_ok hok, settle_add, settle_of_nil hrest]
    refine ⟨hrest, hheard.trans ?_⟩
    have hbefore : (m.publish w paths).1.heard = m.heard := by
      rw [heard, hpublished.trace]
      rfl
    have hsame : (m.publish w paths).1.index.observers = m.index.observers := by
      rw [publish_observers]
    rw [hbefore, hsame]
  constructor
  · intro htells
    obtain ⟨enough, h⟩ := htells []
    obtain ⟨enough', h'⟩ := htold []
    have hheard := (h (max enough enough') (le_max_left _ _)).2
    rw [(h' (max enough enough') (le_max_right _ _)).2] at hheard
    exact (List.append_cancel_left hheard).symm
  · rintro rfl
    exact htold

end Machine

/-! ## Subscriptions made and cancelled from outside -/

/-- A call from outside. -/
inductive Act (ω : Type) where
  /-- Subscribes an observer and gives a handle. -/
  | subscribe (observer : ω) (handle : String)
  /-- Calls a handle. -/
  | cancel (handle : String)

/-- A subscription that was made. -/
structure Subscription (ω : Type) where
  handle : String
  observer : ω
deriving DecidableEq

namespace Act

/-- What a call from outside does to an index. -/
def deed : Act ω → Deed σ ω
  | .subscribe observer handle => .subscribe observer handle
  | .cancel handle => .cancel handle

/-- The subscriptions that were made, oldest first. The calls are given newest first. -/
def made : List (Act ω) → List (Subscription ω)
  | [] => []
  | .subscribe observer handle :: acts => made acts ++ [⟨handle, observer⟩]
  | .cancel _ :: acts => made acts

/-- The handles that were called. -/
def called : List (Act ω) → List String
  | [] => []
  | .subscribe _ _ :: acts => called acts
  | .cancel handle :: acts => handle :: called acts

/-- The subscriptions whose handle has never been called, oldest first. -/
def kept (acts : List (Act ω)) : List (Subscription ω) :=
  (made acts).filter fun s => s.handle ∉ called acts

/-- Each subscription has a handle of its own, and only handles that were given are called. -/
inductive Proper : List (Act ω) → Prop
  | nil : Proper []
  | subscribe {acts : List (Act ω)} {observer : ω} {handle : String} (h : Proper acts)
      (hnew : ∀ s ∈ made acts, s.handle ≠ handle) :
      Proper (.subscribe observer handle :: acts)
  | cancel {acts : List (Act ω)} {s : Subscription ω} (h : Proper acts) (hs : s ∈ made acts) :
      Proper (.cancel s.handle :: acts)

end Act

/-- Calling the handle of `s` does no harm to the subscriptions that stand. -/
inductive Harmless (standing : List (Subscription ω)) (s : Subscription ω) : Prop
  /-- `s` stands, and between the first subscription of its observer and itself there are only
  others of the same observer. -/
  | own {before between after : List (Subscription ω)}
      (hstanding : standing = before ++ (between ++ s :: after))
      (hbefore : ∀ x ∈ before, x.observer ≠ s.observer)
      (hbetween : ∀ x ∈ between, x.observer = s.observer)
  /-- `s` does not stand any more, and neither does any other subscription of its observer. -/
  | spent (hs : s ∉ standing) (hother : ∀ x ∈ standing, x.observer ≠ s.observer)

/-! ### Erasing an observer -/

theorem append_cons_eq_cons_append_iff {observer : ω} {before after : List ω} :
    before ++ observer :: after = observer :: (before ++ after) ↔ ∀ x ∈ before, x = observer := by
  induction before with
  | nil => simp
  | cons x before ih =>
    rw [List.cons_append, List.cons.injEq, List.forall_mem_cons]
    refine and_congr_right fun hx => ?_
    rw [hx, List.cons_append, ih]

variable {standing before after : List (Subscription ω)} {s : Subscription ω}

/-- With handles of their own, the subscriptions other than `s` are those before and after it. -/
theorem filter_handle (h : ((before ++ s :: after).map Subscription.handle).Nodup) :
    ((before ++ s :: after).filter fun x => x.handle ≠ s.handle) = before ++ after := by
  rw [List.map_append, List.map_cons, List.nodup_append, List.nodup_cons] at h
  obtain ⟨-, ⟨hafter, -⟩, hbefore⟩ := h
  have hne_before : ∀ x ∈ before, x.handle ≠ s.handle := fun x hx =>
    hbefore _ (List.mem_map_of_mem hx) _ List.mem_cons_self
  have hne_after : ∀ x ∈ after, x.handle ≠ s.handle := fun x hx heq =>
    hafter (heq ▸ List.mem_map_of_mem hx)
  rw [List.filter_append, List.filter_cons_of_neg (by simp),
    List.filter_eq_self.mpr (by simpa using hne_before),
    List.filter_eq_self.mpr (by simpa using hne_after)]

theorem filter_handle_of_notMem (hown : ∀ x ∈ standing, x.handle = s.handle → x = s)
    (hs : s ∉ standing) : (standing.filter fun x => x.handle ≠ s.handle) = standing := by
  refine List.filter_eq_self.mpr fun x hx => ?_
  have hne : x.handle ≠ s.handle := fun heq => hs (hown x hx heq ▸ hx)
  simpa using hne

/-- The oldest entry of the observer of `s` is as good as that of `s` itself only if calling the
handle of `s` does no harm. -/
theorem erase_eq_iff_harmless [DecidableEq ω] (hdistinct : (standing.map Subscription.handle).Nodup)
    (hown : ∀ x ∈ standing, x.handle = s.handle → x = s) :
    (standing.map Subscription.observer).erase s.observer =
      (standing.filter fun x => x.handle ≠ s.handle).map Subscription.observer ↔
    Harmless standing s := by
  constructor
  · intro herase
    by_cases hs : s ∈ standing
    · obtain ⟨before, after, rfl⟩ := List.append_of_mem hs
      rw [filter_handle hdistinct, List.map_append, List.map_append, List.map_cons] at herase
      by_cases hearlier : s.observer ∈ before.map Subscription.observer
      · -- an older subscription of the observer goes, which moves everything up to `s`
        obtain ⟨others, since, hsplit, hothers⟩ := List.eq_append_cons_of_mem hearlier
        obtain ⟨before, between, rfl, rfl, hbetween⟩ := List.map_eq_append_iff.mp hsplit
        rw [hsplit, List.append_assoc, List.append_assoc, List.erase_append_right _ hothers,
          List.cons_append, List.erase_cons_head, List.append_cancel_left_eq, List.cons_append,
          append_cons_eq_cons_append_iff] at herase
        refine .own (List.append_assoc _ _ _) (fun x hx heq => hothers ?_) fun x hx => ?_
        · exact heq ▸ List.mem_map_of_mem hx
        · have hmem : x.observer ∈ s.observer :: since := hbetween ▸ List.mem_map_of_mem hx
          exact (List.mem_cons.mp hmem).elim id (herase _)
      · have hstanding : before ++ s :: after = before ++ ([] ++ s :: after) := rfl
        refine .own hstanding (fun x hx heq => hearlier ?_) (List.forall_mem_nil _)
        exact heq ▸ List.mem_map_of_mem hx
    · rw [filter_handle_of_notMem hown hs, List.erase_eq_self_iff] at herase
      exact .spent hs fun x hx heq => herase (heq ▸ List.mem_map_of_mem hx)
  · intro h
    cases h with
    | @own before between after hstanding hbefore hbetween =>
      have hstanding' : standing = (before ++ between) ++ s :: after := by
        rw [hstanding, List.append_assoc]
      have hother : s.observer ∉ before.map Subscription.observer := by
        intro hmem
        obtain ⟨x, hx, heq⟩ := List.mem_map.mp hmem
        exact hbefore x hx heq
      have hsame : ∀ o ∈ between.map Subscription.observer, o = s.observer := by
        intro o ho
        obtain ⟨x, hx, rfl⟩ := List.mem_map.mp ho
        exact hbetween x hx
      rw [hstanding'] at hdistinct ⊢
      rw [filter_handle hdistinct, List.append_assoc, List.append_assoc, List.map_append,
        List.map_append, List.map_append, List.map_append, List.map_cons,
        List.erase_append_right _ hother, append_cons_eq_cons_append_iff.mpr hsame,
        List.erase_cons_head]
    | spent hs hother =>
      rw [filter_handle_of_notMem hown hs, List.erase_eq_self_iff]
      intro hmem
      obtain ⟨x, hx, heq⟩ := List.mem_map.mp hmem
      exact hother x hx heq

/-! ### Runs of calls -/

namespace Act

variable {acts : List (Act ω)}

theorem Proper.exists_made (h : Proper acts) {handle : String} (hcalled : handle ∈ called acts) :
    ∃ s ∈ made acts, s.handle = handle := by
  induction h with
  | nil => exact absurd hcalled List.not_mem_nil
  | subscribe h hnew ih =>
    obtain ⟨s, hs, heq⟩ := ih hcalled
    exact ⟨s, List.mem_append_left _ hs, heq⟩
  | @cancel acts s h hs ih =>
    rcases List.mem_cons.mp hcalled with rfl | hcalled
    · exact ⟨s, hs, rfl⟩
    · exact ih hcalled

theorem Proper.nodup_made (h : Proper acts) : ((made acts).map Subscription.handle).Nodup := by
  induction h with
  | nil => exact List.nodup_nil
  | subscribe h hnew ih =>
    rw [made, List.map_append, List.nodup_append]
    refine ⟨ih, List.nodup_singleton _, fun a ha b hb => ?_⟩
    obtain ⟨s, hs, rfl⟩ := List.mem_map.mp ha
    rw [List.mem_singleton.mp hb]
    exact hnew s hs
  | cancel h hs ih => exact ih

theorem Proper.nodup_kept (h : Proper acts) : ((kept acts).map Subscription.handle).Nodup :=
  h.nodup_made.sublist (List.filter_sublist.map _)

theorem Proper.eq_of_kept (h : Proper acts) {s : Subscription ω} (hs : s ∈ made acts) :
    ∀ x ∈ kept acts, x.handle = s.handle → x = s := fun _ hx heq =>
  List.inj_on_of_nodup_map h.nodup_made (List.mem_of_mem_filter hx) hs heq

theorem kept_subscribe {observer : ω} {handle : String} (h : Proper (.subscribe observer handle :: acts)) :
    kept (.subscribe observer handle :: acts) = kept acts ++ [⟨handle, observer⟩] := by
  cases h with
  | subscribe h hnew =>
    have huncalled : handle ∉ called acts := fun hcalled =>
      have ⟨s, hs, heq⟩ := h.exists_made hcalled
      hnew s hs heq
    unfold kept
    rw [made, called, List.filter_append, List.filter_cons_of_pos (by simpa using huncalled),
      List.filter_nil]

theorem kept_cancel (acts : List (Act ω)) (handle : String) :
    kept (.cancel handle :: acts) = (kept acts).filter fun s => s.handle ≠ handle := by
  unfold kept
  rw [made, called, List.filter_filter]
  refine List.filter_congr fun s _ => ?_
  simp [not_or]

end Act

namespace Machine

open Act (made called kept kept_subscribe kept_cancel Proper)

variable [DecidableEq ω] {w : World σ ω} {m : Machine σ ω} {acts : List (Act ω)}

/-- An index after calls from outside, which are given newest first. -/
def having (w : World σ ω) (m : Machine σ ω) : List (Act ω) → Machine σ ω
  | [] => m
  | act :: acts => ((having w m acts).perform w act.deed).1

theorem AtRest.having (h : AtRest m) (w : World σ ω) (acts : List (Act ω)) :
    AtRest (m.having w acts) := by
  induction acts with
  | nil => exact h
  | cons act acts ih =>
    refine ih.of_quiet (quiet_perform w _ fun paths => ?_)
    cases act <;> simp [Act.deed]

/-- The handles of an index lead to the observers of their subscriptions. -/
theorem get?_handles (w : World σ ω) (m : Machine σ ω) (h : Proper acts) {s : Subscription ω}
    (hs : s ∈ made acts) : (m.having w acts).index.handles.get? s.handle = some s.observer := by
  induction h generalizing s with
  | nil => exact absurd hs List.not_mem_nil
  | @subscribe acts observer handle h hnew ih =>
    have hput : (m.having w (.subscribe observer handle :: acts)).index.handles =
        (m.having w acts).index.handles.put handle observer := rfl
    rw [hput, Table.get?_put]
    rcases List.mem_append.mp hs with hs | hs
    · rw [if_neg (Ne.symm (hnew s hs)), ih hs]
    · rw [List.mem_singleton.mp hs, if_pos rfl]
  | @cancel acts t h ht ih =>
    have hsame : (m.having w (.cancel t.handle :: acts)).index.handles =
        (m.having w acts).index.handles := by
      rw [having, Act.deed, perform, Index.cancel, ih ht]
      rfl
    rw [hsame]
    exact ih hs

theorem observers_subscribe (w : World σ ω) (m : Machine σ ω) (acts : List (Act ω)) (observer : ω)
    (handle : String) : (m.having w (.subscribe observer handle :: acts)).index.observers =
      (m.having w acts).index.observers ++ [observer] := rfl

theorem observers_cancel (w : World σ ω) (m : Machine σ ω) (h : Proper acts) {s : Subscription ω}
    (hs : s ∈ made acts) : (m.having w (.cancel s.handle :: acts)).index.observers =
      (m.having w acts).index.observers.erase s.observer := by
  rw [having, Act.deed, perform, Index.cancel, get?_handles w m h hs]
  rfl

/-- The list of the index is that of the subscriptions kept, at any time, exactly if no call of a
handle did harm. -/
theorem observers_eq_kept_iff (hm : m.index.observers = []) (h : Proper acts) :
    (∀ earlier, earlier <:+ acts →
      (m.having w earlier).index.observers = (kept earlier).map Subscription.observer) ↔
    ∀ earlier s, s ∈ made earlier → .cancel s.handle :: earlier <:+ acts →
      Harmless (kept earlier) s := by
  induction h with
  | nil =>
    refine iff_of_true (fun earlier hearlier => ?_) fun earlier s _ hcancel => ?_
    · rw [List.suffix_nil.mp hearlier]
      exact hm
    · exact absurd (List.suffix_nil.mp hcancel) (List.cons_ne_nil _ _)
  | @subscribe acts observer handle h hnew ih =>
    have hproper : Proper (.subscribe observer handle :: acts) := h.subscribe hnew
    have hkept := kept_subscribe hproper
    constructor
    · intro hobservers earlier s hs hcancel
      have hcancel' : .cancel s.handle :: earlier <:+ acts :=
        (List.suffix_cons_iff.mp hcancel).resolve_left (by simp)
      exact ih.mp (fun earlier hearlier => hobservers earlier (hearlier.trans (List.suffix_cons _ _)))
        earlier s hs hcancel'
    · intro hharmless earlier hearlier
      have hbefore := ih.mpr fun earlier s hs hcancel =>
        hharmless earlier s hs (hcancel.trans (List.suffix_cons _ _))
      rcases List.suffix_cons_iff.mp hearlier with rfl | hearlier
      · rw [observers_subscribe, hbefore acts List.suffix_rfl, hkept, List.map_append]
        rfl
      · exact hbefore earlier hearlier
  | @cancel acts s h hs ih =>
    have herase := erase_eq_iff_harmless h.nodup_kept (h.eq_of_kept hs)
    rw [← kept_cancel] at herase
    constructor
    · intro hobservers
      have hbefore : ∀ earlier, earlier <:+ acts →
          (m.having w earlier).index.observers = (kept earlier).map Subscription.observer :=
        fun earlier hearlier => hobservers earlier (hearlier.trans (List.suffix_cons _ _))
      have hnow := hobservers _ List.suffix_rfl
      rw [observers_cancel w m h hs, hbefore acts List.suffix_rfl] at hnow
      intro earlier t ht hcancel
      rcases List.suffix_cons_iff.mp hcancel with heq | hcancel
      · obtain ⟨hhandle, rfl⟩ := List.cons_eq_cons.mp heq
        have hsame : t = s :=
          List.inj_on_of_nodup_map h.nodup_made ht hs (Act.cancel.inj hhandle)
        rw [hsame]
        exact herase.mp hnow
      · exact ih.mp hbefore earlier t ht hcancel
    · intro hharmless earlier hearlier
      have hbefore := ih.mpr fun earlier s hs hcancel =>
        hharmless earlier s hs (hcancel.trans (List.suffix_cons _ _))
      rcases List.suffix_cons_iff.mp hearlier with rfl | hearlier
      · rw [observers_cancel w m h hs, hbefore acts List.suffix_rfl]
        exact herase.mpr (hharmless acts s hs List.suffix_rfl)
      · exact hbefore earlier hearlier

/-- A handle cancels its own subscription and no other, so that at any time the next rescan calls the
observers of the subscriptions whose handle was never called, exactly if no call of a handle did harm
to the others: as long as a subscription stands, none of another observer may stand between it and
the oldest of its own observer, and afterwards its observer may have none that stands. -/
theorem tells_kept_iff_harmless (hw : w.Listens) (s : σ) (current : Request.Current)
    (h : Proper acts) :
    let new : Machine σ ω := { index := {}, world := s, current }
    (∀ earlier, earlier <:+ acts →
      Tells w (new.having w earlier) ((kept earlier).map Subscription.observer)) ↔
    ∀ earlier t, t ∈ made earlier → .cancel t.handle :: earlier <:+ acts →
      Harmless (kept earlier) t := by
  intro new
  have hnew : AtRest new := ⟨rfl, rfl, rfl⟩
  rw [← observers_eq_kept_iff (w := w) (m := new) rfl h]
  refine forall₂_congr fun earlier _ => ?_
  rw [tells_iff hw (hnew.having w earlier), eq_comm]

end Machine

/-! ## Two subscriptions of one observer -/

/-- A world without files whose observers do nothing. -/
def silentWorld : World Unit Bool where
  extract := Urlconf.read false
  read _ path := .error (.file .noEntry path)
  respond _ _ _ := []
  describe observer := toString observer
  requestId n := toString n

theorem silentWorld_listens : silentWorld.Listens where
  gentle := ⟨fun _ _ _ h => by cases h; rfl, fun _ _ _ _ h => absurd h List.not_mem_nil⟩
  respond _ _ _ _ h := absurd h List.not_mem_nil

namespace Machine

/-- An observer subscribes twice and the first handle is called. -/
def cancelledOnce : List (Act Bool) :=
  [.cancel "a", .subscribe true "b", .subscribe true "a"]

theorem proper_cancelledOnce : Act.Proper cancelledOnce := by
  have hfirst : Act.Proper [.subscribe true "a"] := .subscribe .nil (List.forall_mem_nil _)
  have hsecond : Act.Proper [.subscribe true "b", .subscribe true "a"] :=
    .subscribe hfirst (by decide)
  have hmade : ⟨"a", true⟩ ∈ Act.made [.subscribe true "b", .subscribe true "a"] := by decide
  exact .cancel hsecond hmade

theorem tells_kept_cancelledOnce :
    Tells silentWorld
      ({ index := {}, world := (), current := none : Machine Unit Bool }.having silentWorld
        cancelledOnce) [true] := by
  refine (tells_kept_iff_harmless silentWorld_listens () none proper_cancelledOnce).mpr ?_ _
    List.suffix_rfl
  intro earlier t ht hcancel
  rcases List.suffix_cons_iff.mp hcancel with heq | hcancel
  · obtain ⟨hhandle, rfl⟩ := List.cons_eq_cons.mp heq
    have hsame : t = ⟨"a", true⟩ := by
      rcases List.mem_cons.mp ht with rfl | ht
      · rfl
      · rw [List.mem_singleton.mp ht] at hhandle
        exact absurd hhandle (by simp)
    have hkept : Act.kept [.subscribe true "b", .subscribe true "a"] =
        [] ++ ([] ++ t :: [⟨"b", true⟩]) := by
      rw [hsame]
      rfl
    exact .own hkept (List.forall_mem_nil _) (List.forall_mem_nil _)
  · simp [List.suffix_cons_iff] at hcancel

/-- The first handle is called once more, and the other subscription is gone, though its handle was
never called. -/
theorem not_tells_kept_cancelledTwice :
    ¬ Tells silentWorld
      ({ index := {}, world := (), current := none : Machine Unit Bool }.having silentWorld
        (.cancel "a" :: cancelledOnce))
      ((Act.kept (.cancel "a" :: cancelledOnce)).map Subscription.observer) := by
  rw [tells_iff silentWorld_listens (AtRest.having ⟨rfl, rfl, rfl⟩ _ _)]
  decide

end Machine

end RouteAtlas
