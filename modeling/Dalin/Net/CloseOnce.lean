import Dalin.Net.ConnectionLife

/-!
# A close is reported once

`handleClose` can be reached from the hang-up branch of `handleEvent`, and from
a read that finds the end of the stream. After the first close the entry of the
channel is negated and stays so, hence later polls never report the connection
again. What is left is one `handleEvent` that calls both callbacks: it closes
for `POLLHUP` without `POLLIN`, and reads because of `POLLPRI` or `POLLRDHUP`.
-/

set_option autoImplicit false

namespace Dalin.Net

open Transition

/-- The place of a callback in `Channel::handleEvent`. -/
def Callback.place : Callback → ℕ
  | close => 0
  | error => 1
  | read => 2
  | write => 3

/-- `Channel::handleEvent` calls each callback at most once, in their order. -/
theorem eventCallbacks_pairwise (revents : BitVec 32) :
    (eventCallbacks revents).Pairwise fun cb cb' => cb.place < cb'.place := by
  unfold eventCallbacks
  split_ifs <;> simp [Callback.place]

/-- The callbacks after the next one are others that come later. -/
theorem place_lt_of_suffix {revents : BitVec 32} {cb : Callback} {rest : List Callback}
    (h : cb :: rest <:+ eventCallbacks revents) : ∀ cb' ∈ rest, cb.place < cb'.place :=
  (List.pairwise_cons.mp ((eventCallbacks_pairwise revents).sublist h.sublist)).1

/-- `Channel::handleEvent` closes only after a hang-up. -/
theorem hungUp_of_mem {revents : BitVec 32} (h : .close ∈ eventCallbacks revents) :
    HungUp revents := by
  by_contra hnot
  simp [eventCallbacks, hnot] at h

namespace ConnectionView

variable {ι : Type} [DecidableEq ι] {c : ι} {v v' : ConnectionView ι} {a : LoopAction ι}

/-- How the calls of `closeCallback_` go together with the entry in the Poller and
with the callbacks that the thread has still to call. -/
structure SilencedAt (closes : ℕ) (slot : Slot) (waiting : ℕ) (activity : Activity) : Prop where
  muted : 0 < closes → slot.registered = true → slot.muted = true
  active : 0 < waiting → slot.registered = true ∧ slot.muted = false
  callbacks : ∀ cbs, activity = .handling cbs → cbs <:+ eventCallbacks slot.revents
  closing : ∀ cbs, activity = .handling cbs → .close ∈ cbs → closes = 0
  reading : ∀ cbs, activity = .handling cbs → .read ∈ cbs → ¬ HungUp slot.revents → closes = 0

/-- A closed connection is silenced. -/
def Silenced (v : ConnectionView ι) : Prop :=
  SilencedAt v.conn.closes v.slot v.waiting v.activity

/-- An interest call on a registered channel does not enable its entry again. -/
theorem SilencedAt.interest {closes waiting : ℕ} {slot : Slot} {activity : Activity}
    (h : SilencedAt closes slot waiting activity) (hregistered : slot.registered = true)
    (hknown : slot.known = true) {i : Interest}
    (hevents : 0 < waiting → i.apply slot.events ≠ Channel.kNoneEvent) :
    SilencedAt closes (slot.interest i) waiting activity := by
  refine ⟨fun hpos _ => ?_, fun hwait => ⟨rfl, ?_⟩, h.callbacks, h.closing, h.reading⟩
  · simp [Slot.interest, hknown, h.muted hpos hregistered]
  · simp [Slot.interest, (h.active hwait).2, hevents hwait]

/-- The thread goes on to the remaining callbacks. -/
theorem SilencedAt.callback {closes waiting : ℕ} {slot : Slot} {cb : Callback}
    {rest : List Callback} (h : SilencedAt closes slot waiting (.handling (cb :: rest))) :
    SilencedAt closes slot waiting (.handling rest) := by
  refine ⟨h.muted, h.active, fun cbs heq => ?_, fun cbs heq hmem => ?_, fun cbs heq hmem => ?_⟩
  all_goals cases heq
  · exact (List.suffix_cons cb rest).trans (h.callbacks _ rfl)
  · exact h.closing _ rfl (List.mem_cons_of_mem cb hmem)
  · exact h.reading _ rfl (List.mem_cons_of_mem cb hmem)

/-- A close silences the connection, if it is made by the last callback that may close. -/
theorem SilencedAt.close {closes : ℕ} {slot : Slot} {rest : List Callback}
    (hcallbacks : rest <:+ eventCallbacks slot.revents) (hknown : slot.known = true)
    (hclosing : .close ∉ rest) (hreading : .read ∈ rest → HungUp slot.revents) :
    SilencedAt closes (slot.interest .disableAll) 0 (.handling rest) := by
  refine ⟨fun _ _ => ?_, fun hpos => (by omega), fun cbs heq => ?_, fun cbs heq hmem => ?_,
    fun cbs heq hmem hnot => ?_⟩
  · simp [Slot.interest, hknown, Interest.apply]
  all_goals cases heq
  · exact hcallbacks
  · exact absurd hmem hclosing
  · exact absurd (hreading hmem) hnot

omit [DecidableEq ι] in
/-- The interest that `sendInLoop` may ask for leaves a negated entry negated. -/
theorem SilencedAt.send {message : List Byte} {r : WriteResult} {out : Buffer}
    (h : SilencedAt v.conn.closes v.slot v.waiting v.activity)
    (hplaced : PlacedAt v.conn.state v.slot v.waiting v.activity)
    (hregistered : v.sendRest message r ≠ [] ∧ v.slot.isWriting = false →
      v.slot.registered = true) :
    SilencedAt v.conn.closes (v.send message r out).slot v.waiting v.activity := by
  rw [send_slot]
  split
  · rename_i hask
    refine h.interest (hregistered hask) (hplaced.known (hregistered hask)) fun _ hnone => ?_
    have hwriting := Channel.isWriting_apply .enableWriting v.slot.events
    rw [hnone] at hwriting
    change (Channel.kNoneEvent &&& Channel.kWriteEvent != 0) = true at hwriting
    exact absurd hwriting (by decide)
  · exact h

/-- A new channel is not silenced. -/
theorem SilencedAt.establish {closes waiting : ℕ} {slot : Slot} {activity : Activity}
    (hcloses : closes = 0) (hunknown : slot.known = false) (hact : activity = .idle) :
    SilencedAt closes (slot.interest .enableReading) waiting activity := by
  subst hcloses hact
  refine ⟨fun hpos => absurd hpos (Nat.lt_irrefl 0), fun _ => ⟨rfl, ?_⟩,
    fun cbs heq => (by cases heq), fun cbs heq => (by cases heq), fun cbs heq => (by cases heq)⟩
  simp [Slot.interest, hunknown]

/-- Every step keeps a closed connection silenced. -/
theorem Silenced.step (h : v.Silenced) (hplaced : v.Placed) (hlinked : Linked c v)
    (hstep : Step c v a v') : v'.Silenced := by
  have hplace : PlacedAt v.conn.state v.slot v.waiting v.activity := hplaced
  unfold Silenced at *
  cases hstep with
  | stutter | shutdownInLoop | shutdown | foreignSend | foreignShutdown | foreignNewConnection
    | removeConnectionInLoop => exact h
  | poll hact hle hactive =>
    refine ⟨h.muted, hactive, fun cbs heq => ?_, fun cbs heq => ?_, fun cbs heq => ?_⟩
    all_goals
      rw [hact] at heq
      cases heq
  | handleEvent hact hpos =>
    have hclosed : v.conn.closes = 0 := by
      obtain ⟨hregistered, hmuted⟩ := h.active hpos
      by_contra hne
      have := h.muted (by omega) hregistered
      rw [hmuted] at this
      cases this
    have honce := hplace.once
    refine ⟨h.muted, fun hwait => (by simp only at hwait; omega), fun cbs heq => ?_,
      fun _ _ _ => hclosed, fun _ _ _ _ => hclosed⟩
    cases heq
    exact List.suffix_rfl
  | closeCallback hact hopen hheld =>
    have hregistered := hplace.registered hopen
    have hsuffix := h.callbacks _ hact
    have hlater := place_lt_of_suffix hsuffix
    rw [hact] at hplace
    change SilencedAt _ _ v.waiting _
    rw [hplace.busy (by simp)]
    exact .close ((List.suffix_cons _ _).trans hsuffix) (hplace.known hregistered)
      (fun hmem => absurd (hlater _ hmem) (Nat.lt_irrefl _))
      fun _ => hungUp_of_mem (hsuffix.subset List.mem_cons_self)
  | readClose hact hend hopen hheld =>
    have hregistered := hplace.registered hopen
    have hsuffix := h.callbacks _ hact
    have hlater := place_lt_of_suffix hsuffix
    rw [hact] at hplace
    change SilencedAt _ _ v.waiting _
    rw [hplace.busy (by simp)]
    refine .close ((List.suffix_cons _ _).trans hsuffix) (hplace.known hregistered)
      (fun hmem => absurd (hlater _ hmem) (by decide)) fun hmem => absurd (hlater _ hmem) ?_
    exact Nat.lt_irrefl _
  | errorCallback hact | read hact | writeIdle hact =>
    rw [hact] at h
    exact h.callback
  | write hact hwriting hpos hwf hreadable =>
    have hopen := hplace.handling _ hact
    have hregistered := hplace.registered hopen
    rw [hact] at h hplace
    simp only [write_conn, write_slot, write_rest]
    split
    · refine (h.interest hregistered (hplace.known hregistered) fun hpos => ?_).callback
      have := hplace.busy (by simp)
      omega
    · exact h.callback
  | handled hact =>
    exact ⟨h.muted, h.active, fun cbs heq => (by cases heq), fun cbs heq => (by cases heq),
      fun cbs heq => (by cases heq)⟩
  | connectEstablished hact hwait hqueue hstate =>
    obtain ⟨hunknown, _⟩ := hplace.opening hstate
    exact .establish (hlinked.opening hstate).1 hunknown hact
  | sendInLoop hact hwait hqueue hwf hregistered =>
    simp only [send_conn, send_rest]
    exact SilencedAt.send h hplaced (hplaced.registered_of_send hlinked hqueue hregistered)
  | connectDestroyed hact hwait hqueue hopen =>
    have hregistered := hplace.registered hopen
    have h' := h.interest (i := .disableAll) hregistered (hplace.known hregistered)
      fun hpos => (by omega)
    exact ⟨h'.muted, h'.active, fun cbs heq => (by cases heq), fun cbs heq => (by cases heq),
      fun cbs heq => (by cases heq)⟩
  | removeChannel hact =>
    have hwait := hplace.busy (by simp [hact])
    refine ⟨fun _ hregistered => (by cases hregistered), fun hpos => ?_,
      fun cbs heq => (by cases heq), fun cbs heq => (by cases heq), fun cbs heq => (by cases heq)⟩
    simp only [hwait] at hpos
    omega
  | send hstate =>
    simp only [send_conn, send_rest]
    exact SilencedAt.send (v := v.modify _) h hplaced fun _ => hplace.registered (Or.inl hstate)
  | newConnection hentry hstate =>
    obtain ⟨hunknown, hact⟩ := hplace.opening hstate
    exact .establish (hlinked.opening hstate).1 hunknown hact

omit [DecidableEq ι] in
/-- It holds of a new connection. -/
theorem New.silenced (h : v.New) : v.Silenced := by
  unfold Silenced
  rw [h.conn, h.waiting, h.activity]
  exact ⟨fun hpos => absurd hpos (Nat.lt_irrefl 0), fun hpos => absurd hpos (Nat.lt_irrefl 0),
    fun cbs heq => (by cases heq), fun cbs heq => (by cases heq), fun cbs heq => (by cases heq)⟩

omit [DecidableEq ι] in
/-- Only `handleClose` calls `closeCallback_`. It is not called twice, unless a read of a
hung-up channel finds the end of the stream. -/
theorem Silenced.closes_le (h : v.Silenced) (hle : v.conn.closes ≤ 1) (hstep : Step c v a v')
    (hread : ∀ rest r, v.activity = .handling (.read :: rest) → a = .readCallback r →
      IoLoop.endOfStream r = true → ¬ HungUp v.slot.revents) : v'.conn.closes ≤ 1 := by
  cases hstep with
  | closeCallback hact hopen hheld =>
    have := h.closing _ hact List.mem_cons_self
    change v.conn.closes + 1 ≤ 1
    omega
  | readClose hact hend hopen hheld =>
    have := h.reading _ hact List.mem_cons_self (hread _ _ hact rfl hend)
    change v.conn.closes + 1 ≤ 1
    omega
  | write | sendInLoop => simpa using hle
  | send => simpa [modify] using hle
  | _ => exact hle

/-- An open connection that is not closed has its entry with the holder. -/
theorem Linked.held (h : Linked c v) (hopen : v.Open) (hcloses : v.conn.closes = 0) :
    v.conn.entry = .held := by
  cases hentry : v.conn.entry with
  | notYet =>
    have := (h.unheld hentry).1
    rcases hopen with heq | heq <;> simp [heq] at this
  | held => rfl
  | erased =>
    have := h.closes
    rw [hentry, hcloses] at this
    simp only [Entry.removals] at this
    omega

/-- A connection that waits for its removal has its entry with the holder. -/
theorem Linked.held_of_base (h : Linked c v) (hle : v.conn.closes ≤ 1) (hbase : 0 < v.base) :
    v.conn.entry = .held := by
  have hcloses := h.closes
  cases hentry : v.conn.entry with
  | notYet =>
    have := (h.opening (h.unheld hentry).1).1
    omega
  | held => rfl
  | erased =>
    rw [hentry] at hcloses
    simp only [Entry.removals] at hcloses
    omega

end ConnectionView

namespace LoopAction

variable {ι : Type}

/-- The steps that may call `closeCallback_` or `removeConnectionInLoop`. -/
def mayClose : LoopAction ι → Bool
  | closeCallback | readCallback _ | removeConnectionInLoop => true
  | _ => false

end LoopAction

namespace LoopRun

variable {ι : Type} [DecidableEq ι] {s : LoopRun ι} {a : LoopAction ι}

/-- A read that finds the end of the stream is not made by the `handleEvent` that closed
the connection before, for a hang-up without `POLLIN`. -/
def EndsOnce (s : LoopRun ι) (a : LoopAction ι) : Prop :=
  match a, s.phase with
  | .readCallback r, .handling c _ _ =>
    IoLoop.endOfStream r = true → ¬ HungUp (s.loop.channel c).revents
  | _, _ => True

instance (s : LoopRun ι) (a : LoopAction ι) : Decidable (EndsOnce s a) := by
  unfold EndsOnce
  generalize s.phase = phase
  apply @LoopAction.casesOn _ _ a <;> intros <;> apply @Phase.casesOn _ _ phase <;> intros <;>
    infer_instance

instance (s : LoopRun ι) (a : LoopAction ι) :
    Decidable (((loopSystem ι).restrict EndsOnce).enabled s a) :=
  inferInstanceAs (Decidable (LoopRun.enabledIn .. ∧ EndsOnce s a))

/-- What holds of a connection if reads end once. -/
theorem silenced_of_reachable (h : ((loopSystem ι).restrict EndsOnce).Reachable s) :
    s.loop.Wf ∧ ∀ c, (ConnectionView.Linked c (s.view c) ∧ (s.view c).Placed) ∧
      (s.view c).Silenced ∧ (s.view c).conn.closes ≤ 1 := by
  refine views_of_reachable (J := fun c v => (ConnectionView.Linked c v ∧ v.Placed) ∧
    v.Silenced ∧ v.conn.closes ≤ 1) h (fun hnew => ?_) ?_
  · refine ⟨⟨hnew.linked, hnew.placed⟩, hnew.silenced, ?_⟩
    rw [hnew.conn]
    exact Nat.zero_le 1
  · intro t a u c _ ⟨⟨hlinked, hplaced⟩, hsilenced, hle⟩ _ hends _ hstep
    refine ⟨⟨hlinked.step hstep, hplaced.step hlinked hstep⟩,
      hsilenced.step hplaced hlinked hstep, hsilenced.closes_le hle hstep ?_⟩
    intro rest r hact ha hend
    obtain ⟨active, hphase⟩ := phase_of_handling hact
    subst ha
    unfold EndsOnce at hends
    rw [hphase] at hends
    exact hends hend

/-- A connection that is handled and not closed yet can be closed. -/
theorem ready_of_handling {l : IoLoop ι} {u : Bool} {c : ι} {cbs : List Callback}
    {active : List (ChannelId ι)}
    (hlinked : ConnectionView.Linked c (view ⟨l, .handling c cbs active, u⟩ c))
    (hplaced : (view ⟨l, .handling c cbs active, u⟩ c).Placed) (hcloses : (l.conn c).closes = 0) :
    l.poller.Registered (.conn c) ∧
      ((l.conn c).state = .kConnected ∨ (l.conn c).state = .kDisconnecting) ∧
      (l.conn c).entry = .held := by
  have hopen := ConnectionView.PlacedAt.handling hplaced cbs (activity_handling c cbs active)
  have hregistered := of_decide_eq_true (ConnectionView.PlacedAt.registered hplaced hopen)
  exact ⟨hregistered, hopen, hlinked.held hopen hcloses⟩

/-- A step that may close succeeds: the entry that the holder asserts is there. -/
theorem exists_exec_of_mayClose (h : ((loopSystem ι).restrict EndsOnce).Reachable s)
    (hclose : a.mayClose = true) (henabled : ((loopSystem ι).restrict EndsOnce).enabled s a) :
    ∃ s', (loopSystem ι).exec s a = .ok s' := by
  obtain ⟨hwf, hall⟩ := silenced_of_reachable h
  obtain ⟨l, φ, u⟩ := s
  obtain ⟨henabled, hends⟩ := henabled
  change enabledIn l u a φ at henabled
  cases a with
  | closeCallback =>
    obtain ⟨c, rest, active, rfl⟩ := phase_of_callback henabled rfl
    obtain ⟨⟨hlinked, hplaced⟩, hsilenced, _⟩ := hall c
    have hcloses := hsilenced.closing _ (activity_handling c _ active) List.mem_cons_self
    obtain ⟨hregistered, hopen, hheld⟩ := ready_of_handling hlinked hplaced hcloses
    obtain ⟨l', hok⟩ := IoLoop.exists_handleClose hwf.poller hregistered hopen fun _ => hheld
    exact ⟨_, bind_eq_ok.mpr ⟨l', hok, rfl⟩⟩
  | readCallback r =>
    obtain ⟨c, rest, active, rfl⟩ := phase_of_callback henabled rfl
    obtain ⟨⟨hlinked, hplaced⟩, hsilenced, _⟩ := hall c
    obtain ⟨input, hinput, heq⟩ := IoLoop.handleRead_eq l c r (hwf.buffers c).1
    have hread : ∃ l', l.handleRead c r = .ok l' := by
      rw [heq]
      dsimp only
      split
      · rename_i hend
        have hcloses := hsilenced.reading _ (activity_handling c _ active) List.mem_cons_self
          (hends hend)
        obtain ⟨hregistered, hopen, hheld⟩ := ready_of_handling hlinked hplaced hcloses
        refine IoLoop.exists_handleClose hwf.poller hregistered ?_ fun _ => ?_
        · rwa [IoLoop.modifyConn_conn_self]
        · rwa [IoLoop.modifyConn_conn_self]
      · exact ⟨_, rfl⟩
    obtain ⟨l', hok⟩ := hread
    exact ⟨_, bind_eq_ok.mpr ⟨l', hok, rfl⟩⟩
  | removeConnectionInLoop =>
    change l.baseFunctors ≠ [] at henabled
    change ∃ s', LoopRun.exec ⟨l, φ, u⟩ .removeConnectionInLoop = Except.ok s'
    delta LoopRun.exec
    dsimp only
    cases hbase : l.baseFunctors with
    | nil => exact absurd hbase henabled
    | cons c rest =>
      obtain ⟨⟨hlinked, _⟩, _, hle⟩ := hall c
      have hcount : (view ⟨l, φ, u⟩ c).base = rest.count c + 1 := by
        change l.baseFunctors.count c = _
        rw [hbase, List.count_cons_self]
      have hheld := hlinked.held_of_base hle (by omega)
      exact ⟨_, bind_eq_ok.mpr ⟨_, IoLoop.dropEntry_of_held _ hheld, rfl⟩⟩
  | _ => cases hclose

/-- **Close is reported at most once.** In every run in which no read finds the end of
the stream in a `handleEvent` that has already closed its connection, `closeCallback_` is
called at most once for each connection, and no assertion on the way of a close fails:
the entry that `removeConnection` takes out of the table is there. -/
theorem closes_at_most_once (h : ((loopSystem ι).restrict EndsOnce).Reachable s) :
    (∀ c, (s.loop.conn c).closes ≤ 1) ∧
      ∀ a, a.mayClose = true → ((loopSystem ι).restrict EndsOnce).enabled s a →
        ∃ s', (loopSystem ι).exec s a = .ok s' := by
  obtain ⟨_, hall⟩ := silenced_of_reachable h
  exact ⟨fun c => (hall c).2.2, fun _ hclose henabled => exists_exec_of_mayClose h hclose henabled⟩

/-- A loop with one new connection of a server whose base loop is another one. -/
def servedConnection : IoLoop Unit :=
  { oneConnection with conn := fun _ => .new true (.server false) }

/-- Its connection is new. -/
theorem servedConnection_fresh : servedConnection.Fresh :=
  ⟨oneConnection_fresh.poller, fun _ => rfl, rfl, rfl⟩

/-- The peer sends urgent data and hangs up: one `handleEvent` closes and reads. -/
def hungUpRead : List (LoopAction Unit) :=
  [.foreignNewConnection (), .pollFailed, .doPendingFunctors, .runFunctor (.room 0), .batchDone,
    .poll [0x012], .handleEvent, .closeCallback]

/-- No assertion fails on the way of the one close of that run. -/
theorem closes_at_most_once_hungUp :
    ∃ s, ((loopSystem Unit).restrict EndsOnce).Reachable s ∧ (s.loop.conn ()).closes ≤ 1 ∧
      ∃ s', (loopSystem Unit).exec s .removeConnectionInLoop = .ok s' := by
  have hcheck : (((loopSystem Unit).restrict EndsOnce).replay ⟨servedConnection, .polling, true⟩
      hungUpRead).any (fun s => decide
        (((loopSystem Unit).restrict EndsOnce).enabled s .removeConnectionInLoop)) = true := by
    decide +kernel
  obtain ⟨s, hrun, henabled⟩ := System.exists_run_of_replay hcheck
  have hreach : ((loopSystem Unit).restrict EndsOnce).Reachable s :=
    ⟨_, _, ⟨servedConnection_fresh, rfl, rfl⟩, hrun⟩
  obtain ⟨hcloses, hsafe⟩ := closes_at_most_once hreach
  exact ⟨s, hreach, hcloses (), hsafe _ rfl (of_decide_eq_true henabled)⟩

/-- If the read that follows finds the end of the stream, `closeCallback_` is called a
second time, and the second removal finds no entry. -/
theorem closes_twice_hungUp :
    ∃ s, (loopSystem Unit).Run ⟨servedConnection, .polling, true⟩
        (hungUpRead ++ [LoopAction.readCallback (.data []), .removeConnectionInLoop]) s ∧
      (s.loop.conn ()).closes = 2 ∧ (loopSystem Unit).enabled s .removeConnectionInLoop ∧
      (loopSystem Unit).exec s .removeConnectionInLoop = .error (.assertion "n == 1") := by
  have hcheck : ((loopSystem Unit).replay ⟨servedConnection, .polling, true⟩
      (hungUpRead ++ [LoopAction.readCallback (.data []), .removeConnectionInLoop])).any (fun s =>
        decide ((s.loop.conn ()).closes = 2 ∧
          (loopSystem Unit).enabled s .removeConnectionInLoop ∧
          (loopSystem Unit).exec s .removeConnectionInLoop = .error (.assertion "n == 1"))) =
      true := by
    decide +kernel
  obtain ⟨s, hrun, hs⟩ := System.exists_run_of_replay hcheck
  exact ⟨s, hrun, of_decide_eq_true hs⟩

end LoopRun

end Dalin.Net
