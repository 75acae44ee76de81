import Dalin.Net.LoopViews

/-!
# The life of a connection

What holds of a connection in every run of its loop, whatever the loop, its
user and the other threads do: how `state_`, the entry with the holder, the
registration of the channel, the queued functors and the number of calls of
`closeCallback_` go together.
-/

set_option autoImplicit false

namespace Dalin.Net

open Transition

/-- How often an entry was removed. -/
def Entry.removals : Entry → ℕ
  | erased => 1
  | notYet | held => 0

/-- How often `connectDestroyed` was entered. -/
def StateE.ends : StateE → ℕ
  | kDisconnected => 1
  | kConnecting | kConnected | kDisconnecting => 0

namespace ConnectionView

variable {ι : Type} [DecidableEq ι] {c : ι} {v v' : ConnectionView ι} {a : LoopAction ι}

/-- The entry with the holder, the calls of `closeCallback_` and the queued functors:
each call of `closeCallback_` leads to one removal of the entry, and the removal to
one `connectDestroyed`. -/
structure Linked (c : ι) (v : ConnectionView ι) : Prop where
  unheld : v.conn.entry = .notYet → v.conn.state = .kConnecting ∧ v.queue = []
  opening : v.conn.state = .kConnecting →
    v.conn.closes = 0 ∧ ∀ f ∈ v.queue, f = .connectEstablished c
  closes : v.conn.closes = v.base + v.conn.entry.removals
  destroyed : v.queue.count (.connectDestroyed c) + v.conn.state.ends = v.conn.entry.removals

/-- A close keeps the bookkeeping of the entry. -/
theorem Linked.close (h : Linked c v) (hopen : v.Open)
    (hheld : IoLoop.viaBase v.conn.holder = false → v.conn.entry = .held) :
    Linked c (v.close c) := by
  obtain ⟨hunheld, hopening, hcloses, hdestroyed⟩ := h
  have hnot : v.conn.state ≠ .kConnecting := by
    rcases hopen with heq | heq <;> simp [heq]
  unfold ConnectionView.close
  cases hvia : IoLoop.viaBase v.conn.holder with
  | true =>
    refine ⟨fun hentry => absurd (hunheld hentry).1 hnot, fun hstate => absurd hstate hnot, ?_, ?_⟩
    · simp only [if_true]
      omega
    · simpa using hdestroyed
  | false =>
    rw [hheld hvia] at hcloses hdestroyed
    refine ⟨fun hentry => by simp at hentry, fun hstate => absurd hstate hnot, ?_, ?_⟩
    · simpa [Entry.removals] using hcloses
    · simp only [Entry.removals] at hdestroyed
      simp only [Bool.false_eq_true, if_false, List.count_append, List.count_singleton_self,
        Entry.removals]
      omega

/-- A step that neither changes `state_` nor the entry, and queues nothing that destroys
the connection, keeps the bookkeeping. -/
theorem Linked.of_same (h : Linked c v) (hentry : v'.conn.entry = v.conn.entry)
    (hstate : v'.conn.state = v.conn.state) (hcloses : v'.conn.closes = v.conn.closes)
    (hbase : v'.base = v.base) (hunheld : v.queue = [] → v'.queue = [])
    (hopening : ∀ f ∈ v'.queue, f ∈ v.queue)
    (hcount : v'.queue.count (.connectDestroyed c) = v.queue.count (.connectDestroyed c)) :
    Linked c v' := by
  refine ⟨fun he => ?_, fun hs => ?_, ?_, ?_⟩
  · rw [hentry] at he
    rw [hstate]
    exact ⟨(h.unheld he).1, hunheld (h.unheld he).2⟩
  · rw [hstate] at hs
    rw [hcloses]
    exact ⟨(h.opening hs).1, fun f hf => (h.opening hs).2 f (hopening f hf)⟩
  · rw [hcloses, hbase, hentry]
    exact h.closes
  · rw [hcount, hstate, hentry]
    exact h.destroyed

/-- Every step keeps the bookkeeping of the entry. -/
theorem Linked.step (h : Linked c v) (hstep : Step c v a v') : Linked c v' := by
  have hall := h
  obtain ⟨hunheld, hopening, hcloses, hdestroyed⟩ := h
  cases hstep with
  | stutter => exact hall
  | poll | handleEvent | errorCallback | read | writeIdle | handled | removeChannel =>
    exact ⟨hunheld, hopening, hcloses, hdestroyed⟩
  | closeCallback hact hopen hheld =>
    have h' := hall.close hopen hheld
    exact ⟨h'.unheld, h'.opening, h'.closes, h'.destroyed⟩
  | readClose hact hend hopen hheld =>
    have hmodify : Linked c (v.modify fun conn => { conn with inputBuffer := _ }) :=
      ⟨hunheld, hopening, hcloses, hdestroyed⟩
    have h' := hmodify.close hopen hheld
    exact ⟨h'.unheld, h'.opening, h'.closes, h'.destroyed⟩
  | write => constructor <;> simpa
  | connectEstablished hact hwait hqueue hstate =>
    rw [hqueue] at hunheld hopening hdestroyed
    rw [hstate, List.count_cons_of_ne (by simp)] at hdestroyed
    refine ⟨fun hentry => ?_, fun hnot => ?_, hcloses, hdestroyed⟩
    · cases (hunheld hentry).2
    · cases hnot
  | sendInLoop hact hwait hqueue =>
    refine hall.of_same ?_ ?_ ?_ ?_ ?_ ?_ ?_ <;> simp [hqueue]
    exact fun f hf => Or.inr hf
  | shutdownInLoop hact hwait hqueue =>
    refine hall.of_same rfl rfl rfl rfl ?_ ?_ ?_ <;> simp [hqueue]
    exact fun f hf => Or.inr hf
  | connectDestroyed hact hwait hqueue hopen =>
    rw [hqueue] at hunheld hopening hdestroyed
    rw [List.count_cons_self] at hdestroyed
    refine ⟨fun hentry => ?_, fun hnot => ?_, hcloses, ?_⟩
    · cases (hunheld hentry).2
    · cases hnot
    · rcases hopen with heq | heq
      all_goals
        rw [heq] at hdestroyed
        exact hdestroyed
  | send hstate =>
    refine hall.of_same ?_ ?_ ?_ ?_ ?_ ?_ ?_ <;> simp [modify]
  | shutdown hstate =>
    rw [hstate] at hunheld hdestroyed
    refine ⟨fun hentry => ?_, fun hnot => ?_, hcloses, ?_⟩
    · cases (hunheld hentry).1
    · cases hnot
    · simpa [ConnectionView.shutdown, modify, StateE.ends] using hdestroyed
  | newConnection hentry hstate =>
    obtain ⟨_, hqueue⟩ := hunheld hentry
    rw [hentry] at hcloses hdestroyed
    rw [hstate] at hdestroyed
    refine ⟨fun hnot => ?_, fun hnot => ?_, hcloses, hdestroyed⟩
    · cases hnot
    · cases hnot
  | foreignSend hstate =>
    have hne : v.conn.state ≠ .kConnecting := by simp [hstate]
    refine ⟨fun hentry => absurd (hunheld hentry).1 hne, fun hnot => absurd hnot hne, hcloses, ?_⟩
    simpa [modify] using hdestroyed
  | foreignShutdown hstate =>
    rw [hstate] at hunheld hdestroyed
    refine ⟨fun hentry => ?_, fun hnot => ?_, hcloses, ?_⟩
    · cases (hunheld hentry).1
    · cases hnot
    · simpa [ConnectionView.shutdown, modify, StateE.ends] using hdestroyed
  | foreignNewConnection hentry =>
    obtain ⟨hstate, hqueue⟩ := hunheld hentry
    rw [hentry] at hcloses hdestroyed
    refine ⟨fun hnot => ?_, fun _ => ⟨(hopening hstate).1, ?_⟩, hcloses, ?_⟩
    · cases hnot
    · simp [hqueue]
    · simpa [modify, Entry.removals] using hdestroyed
  | removeConnectionInLoop hbase hheld =>
    rw [hheld] at hcloses hdestroyed
    simp only [Entry.removals] at hcloses hdestroyed
    have hne : v.conn.state ≠ .kConnecting := by
      intro hstate
      have := (hopening hstate).1
      omega
    refine ⟨fun hnot => ?_, fun hnot => absurd hnot hne, ?_, ?_⟩
    · cases hnot
    · simp only [modify, Entry.removals]
      omega
    · simp only [modify, List.count_append, List.count_singleton_self, Entry.removals]
      omega

/-- How `state_`, the registration of the channel and the place of the thread go
together. -/
structure PlacedAt (state : StateE) (slot : Slot) (waiting : ℕ) (activity : Activity) :
    Prop where
  opening : state = .kConnecting → slot.known = false ∧ activity = .idle
  registered : state = .kConnected ∨ state = .kDisconnecting → slot.registered = true
  ended : state = .kDisconnected →
    slot.known = true ∧ (slot.registered = true → activity = .destroying)
  destroying : activity = .destroying → state = .kDisconnected ∧ slot.registered = true
  known : slot.registered = true → slot.known = true
  active : 0 < waiting → slot.registered = true
  once : waiting ≤ 1
  busy : activity ≠ .idle → waiting = 0
  handling : ∀ callbacks, activity = .handling callbacks →
    state = .kConnected ∨ state = .kDisconnecting

/-- The connection is in its place. -/
def Placed (v : ConnectionView ι) : Prop := PlacedAt v.conn.state v.slot v.waiting v.activity

omit [DecidableEq ι] in
/-- An open connection with no step of the thread pending may change its slot, as long as
the channel stays registered. -/
theorem PlacedAt.of_slot {state : StateE} {slot slot' : Slot} {waiting : ℕ} {activity : Activity}
    (h : PlacedAt state slot waiting activity) (hknown : slot'.known = slot.known)
    (hregistered : slot'.registered = slot.registered) :
    PlacedAt state slot' waiting activity := by
  obtain ⟨hopening, hreg, hended, hdestroying, hknown', hwaiting, honce, hbusy, hhandling⟩ := h
  rw [← hknown] at hopening hended hknown'
  rw [← hregistered] at hreg hended hdestroying hknown' hwaiting
  exact ⟨hopening, hreg, hended, hdestroying, hknown', hwaiting, honce, hbusy, hhandling⟩

omit [DecidableEq ι] in
/-- An interest call on a registered channel. -/
theorem PlacedAt.interest {state : StateE} {slot : Slot} {waiting : ℕ} {activity : Activity}
    (h : PlacedAt state slot waiting activity) (hregistered : slot.registered = true)
    (i : Interest) : PlacedAt state (slot.interest i) waiting activity :=
  h.of_slot (h.known hregistered).symm hregistered.symm

omit [DecidableEq ι] in
/-- The thread goes on with the callbacks of the connection it handles. -/
theorem PlacedAt.callback {state : StateE} {slot : Slot} {waiting : ℕ}
    {callbacks rest : List Callback} (h : PlacedAt state slot waiting (.handling callbacks)) :
    PlacedAt state slot waiting (.handling rest) := by
  have hopen := h.handling callbacks rfl
  have hbusy := h.busy (by simp)
  refine ⟨fun hs => ?_, h.registered, fun hs => ?_, fun hd => (by cases hd), h.known, h.active,
    h.once, fun _ => hbusy, fun _ _ => hopen⟩
  · rcases hopen with heq | heq <;> simp [heq] at hs
  · rcases hopen with heq | heq <;> simp [heq] at hs

omit [DecidableEq ι] in
/-- An open connection stays in its place when its state changes to another open one. -/
theorem PlacedAt.of_open {state state' : StateE} {slot : Slot} {waiting : ℕ}
    {activity : Activity} (h : PlacedAt state slot waiting activity)
    (hopen : state = .kConnected ∨ state = .kDisconnecting)
    (hopen' : state' = .kConnected ∨ state' = .kDisconnecting) :
    PlacedAt state' slot waiting activity := by
  have hregistered := h.registered hopen
  have hnot : activity ≠ .destroying := by
    intro hd
    have := (h.destroying hd).1
    rcases hopen with heq | heq <;> simp [heq] at this
  refine ⟨fun hs => ?_, fun _ => hregistered, fun hs => ?_, fun hd => absurd hd hnot, h.known,
    h.active, h.once, h.busy, fun _ _ => hopen'⟩
  · rcases hopen' with heq | heq <;> simp [heq] at hs
  · rcases hopen' with heq | heq <;> simp [heq] at hs

omit [DecidableEq ι] in
/-- An open connection that is not among the active channels. -/
theorem PlacedAt.of_registered {state : StateE} {slot : Slot} {activity : Activity}
    (hopen : state = .kConnected ∨ state = .kDisconnecting) (hregistered : slot.registered = true)
    (hknown : slot.known = true) (hnot : activity ≠ .destroying) :
    PlacedAt state slot 0 activity := by
  refine ⟨fun hs => ?_, fun _ => hregistered, fun hs => ?_, fun hd => absurd hd hnot,
    fun _ => hknown, fun _ => hregistered, Nat.zero_le 1, fun _ => rfl, fun _ _ => hopen⟩
  · rcases hopen with heq | heq <;> simp [heq] at hs
  · rcases hopen with heq | heq <;> simp [heq] at hs

omit [DecidableEq ι] in
/-- The first half of `connectDestroyed`. -/
theorem PlacedAt.destroy {slot : Slot} {waiting : ℕ} (hwait : waiting = 0) :
    PlacedAt .kDisconnected (slot.interest .disableAll) waiting .destroying :=
  ⟨fun hs => (by cases hs), fun hopen => (by rcases hopen with h | h <;> cases h),
    fun _ => ⟨rfl, fun _ => rfl⟩, fun _ => ⟨rfl, rfl⟩, fun _ => rfl, fun _ => rfl,
    (by omega), fun _ => hwait, fun _ hh => (by cases hh)⟩

omit [DecidableEq ι] in
/-- The second half of `connectDestroyed`. -/
theorem PlacedAt.remove {state : StateE} {slot : Slot} {waiting : ℕ} {activity : Activity}
    (h : PlacedAt state slot waiting activity) (hact : activity = .destroying) :
    PlacedAt state slot.removed waiting .idle := by
  obtain ⟨hstate, hregistered⟩ := h.destroying hact
  have hwait := h.busy (by simp [hact])
  rw [hstate, hwait]
  exact ⟨fun hs => (by cases hs), fun hopen => (by rcases hopen with h | h <;> cases h),
    fun _ => ⟨h.known hregistered, fun hr => (by cases hr)⟩, fun hd => (by cases hd),
    fun hr => (by cases hr), fun hpos => (by cases hpos), Nat.zero_le 1,
    fun hbusy => absurd rfl hbusy, fun _ hh => (by cases hh)⟩

omit [DecidableEq ι] in
/-- A channel gets registered when the connection is established. -/
theorem PlacedAt.establish {slot : Slot} {waiting : ℕ} {activity : Activity}
    (h : PlacedAt .kConnecting slot waiting activity) :
    PlacedAt .kConnected (slot.interest .enableReading) waiting activity := by
  obtain ⟨_, hidle⟩ := h.opening rfl
  subst hidle
  exact ⟨fun hs => (by cases hs), fun _ => rfl, fun hs => (by cases hs), fun hd => (by cases hd),
    fun _ => rfl, fun _ => rfl, h.once, fun hbusy => absurd rfl hbusy, fun _ hh => (by cases hh)⟩

omit [DecidableEq ι] in
/-- The interest that `sendInLoop` may ask for keeps an open connection in its place. -/
theorem PlacedAt.send {waiting : ℕ} {activity : Activity} {state : StateE} {message : List Byte}
    {r : WriteResult} {out : Buffer} (h : PlacedAt state v.slot waiting activity)
    (hregistered : v.sendRest message r ≠ [] ∧ v.slot.isWriting = false →
      v.slot.registered = true) :
    PlacedAt state (v.send message r out).slot waiting activity := by
  rw [send_slot]
  split
  · rename_i hask
    exact h.interest (hregistered hask) _
  · exact h

/-- A completed `sendInLoop` that asks for write events finds the channel registered. -/
theorem Placed.registered_of_send {message : List Byte} {r : WriteResult}
    {rest : List (Functor ι)} (h : v.Placed) (hlinked : Linked c v)
    (hqueue : v.queue = .sendInLoop c message :: rest)
    (hregistered : v.sendRest message r ≠ [] ∧ v.slot.isWriting = false → v.slot.known = true →
      v.slot.registered = true)
    (hask : v.sendRest message r ≠ [] ∧ v.slot.isWriting = false) : v.slot.registered = true := by
  cases hstate : v.conn.state with
  | kConnecting =>
    have := (hlinked.opening hstate).2 _ (by rw [hqueue]; exact List.mem_cons_self)
    cases this
  | kConnected => exact h.registered (Or.inl hstate)
  | kDisconnecting => exact h.registered (Or.inr hstate)
  | kDisconnected => exact hregistered hask (h.ended hstate).1

/-- Every step keeps the connection in its place. -/
theorem Placed.step (h : v.Placed) (hlinked : Linked c v) (hstep : Step c v a v') : v'.Placed := by
  unfold Placed at *
  cases hstep with
  | stutter | foreignSend | foreignNewConnection | removeConnectionInLoop => exact h
  | poll hact hle hactive =>
    refine ⟨h.opening, h.registered, h.ended, h.destroying, h.known, fun hpos => (hactive hpos).1,
      hle, fun hbusy => absurd hact hbusy, h.handling⟩
  | handleEvent hact hpos =>
    have hregistered := h.active hpos
    have hopen : v.Open := by
      cases hstate : v.conn.state with
      | kConnecting =>
        have := (h.opening hstate).1
        rw [h.known hregistered] at this
        cases this
      | kConnected => exact Or.inl hstate
      | kDisconnecting => exact Or.inr hstate
      | kDisconnected =>
        have := (h.ended hstate).2 hregistered
        rw [hact] at this
        cases this
    have hwait : v.waiting - 1 = 0 := by
      have := h.once
      omega
    simp only [hwait]
    exact .of_registered hopen hregistered (h.known hregistered) (by simp)
  | closeCallback hact hopen hheld =>
    rw [hact] at h
    exact (h.interest (h.registered hopen) _).callback
  | errorCallback hact =>
    rw [hact] at h
    exact h.callback
  | readClose hact hend hopen hheld =>
    rw [hact] at h
    exact (h.interest (h.registered hopen) _).callback
  | read hact =>
    rw [hact] at h
    exact h.callback
  | writeIdle hact =>
    rw [hact] at h
    exact h.callback
  | write hact hwriting =>
    rw [hact] at h
    have hregistered := h.registered (h.handling _ rfl)
    simp only [write_conn, write_slot, write_rest]
    split
    · exact (h.interest hregistered _).callback
    · exact h.callback
  | handled hact =>
    have hopen := h.handling _ hact
    have hregistered := h.registered hopen
    simp only [h.busy (by simp [hact])]
    exact .of_registered hopen hregistered (h.known hregistered) (by simp)
  | connectEstablished hact hwait hqueue hstate =>
    rw [hstate] at h
    exact h.establish
  | sendInLoop hact hwait hqueue hwf hregistered =>
    simp only [send_conn, send_rest]
    exact h.send (Placed.registered_of_send h hlinked hqueue hregistered)
  | shutdownInLoop hact hwait hqueue => exact h
  | connectDestroyed hact hwait hqueue hopen => exact .destroy hwait
  | removeChannel hact => exact h.remove hact
  | send hstate =>
    simp only [send_conn, send_rest]
    exact PlacedAt.send (v := v.modify _) h fun _ => h.registered (Or.inl hstate)
  | shutdown hstate => exact h.of_open (Or.inl hstate) (Or.inr rfl)
  | newConnection hentry hstate =>
    rw [hstate] at h
    exact h.establish
  | foreignShutdown hstate => exact h.of_open (Or.inl hstate) (Or.inr rfl)

/-- A connection before the run. -/
structure New (v : ConnectionView ι) : Prop where
  conn : v.conn = .new v.conn.writeCompleteCallback v.conn.holder
  unknown : v.slot.known = false
  unregistered : v.slot.registered = false
  silent : v.slot.isWriting = false
  calls : v.calls = []
  queue : v.queue = []
  base : v.base = 0
  waiting : v.waiting = 0
  activity : v.activity = .idle

/-- It holds of a new connection. -/
theorem New.linked (h : v.New) : Linked c v := by
  refine ⟨fun _ => ⟨?_, h.queue⟩, fun _ => ⟨?_, ?_⟩, ?_, ?_⟩
  · rw [h.conn]
    rfl
  · rw [h.conn]
    rfl
  · rw [h.queue]
    exact fun f hf => absurd hf List.not_mem_nil
  · rw [h.conn, h.base]
    rfl
  · rw [h.conn, h.queue]
    rfl

omit [DecidableEq ι] in
/-- It holds of a new connection. -/
theorem New.placed (h : v.New) : v.Placed := by
  have hstate : v.conn.state = .kConnecting := by
    rw [h.conn]
    rfl
  unfold Placed
  rw [hstate, h.activity, h.waiting]
  refine ⟨fun _ => ⟨h.unknown, rfl⟩, fun hopen => ?_, fun hs => (by cases hs),
    fun hd => (by cases hd), fun hr => ?_, fun hpos => absurd hpos (Nat.lt_irrefl 0),
    Nat.zero_le 1, fun _ => rfl, fun _ hh => (by cases hh)⟩
  · rcases hopen with heq | heq <;> cases heq
  · rw [h.unregistered] at hr
    cases hr

end ConnectionView

namespace LoopRun

variable {ι : Type} [DecidableEq ι] {G : LoopRun ι → LoopAction ι → Prop} {s s' : LoopRun ι}

/-- At the start of a run the loop is well formed and its connections are new. -/
theorem views_init (h : (loopSystem ι).init s) : s.loop.Wf ∧ ∀ c, (s.view c).New := by
  obtain ⟨l, φ, u⟩ := s
  obtain ⟨hfresh, hphase, _⟩ := h
  replace hfresh : l.Fresh := hfresh
  cases hphase
  have hunregistered (c : ι) : ¬ l.poller.Registered (.conn c) := by
    unfold Poller.Registered
    rw [hfresh.poller.channels, AList.lookup_empty]
    exact fun heq => by cases heq
  refine ⟨⟨hfresh.poller.sound.wf, fun c => ?_⟩, fun c => ?_⟩
  · change (l.conn c).inputBuffer.Wf ∧ (l.conn c).outputBuffer.Wf
    rw [hfresh.conn c]
    exact ⟨Buffer.new_wf, Buffer.new_wf⟩
  · have hchannel := hfresh.poller.channel (.conn c)
    refine ⟨hfresh.conn c, ?_, ?_, ?_, ?_, ?_, ?_, rfl, rfl⟩
    · change decide (0 ≤ (l.poller.channel (.conn c)).index) = false
      rw [hchannel]
      rfl
    · exact decide_eq_false (hunregistered c)
    · change (l.poller.channel (.conn c)).isWriting = false
      rw [hchannel]
      exact Channel.isWriting_new _
    · change l.poller.callsOf (.conn c) = []
      unfold Poller.callsOf
      rw [hfresh.poller.calls]
      rfl
    · change functorsOf c ([] ++ l.pendingFunctors) = []
      rw [hfresh.pendingFunctors]
      rfl
    · change l.baseFunctors.count c = 0
      rw [hfresh.baseFunctors]
      rfl

/-- **Invariant rule for connections.** A property of one connection that holds before
the run and that every step of the connection keeps holds in every reachable state. -/
theorem views_of_reachable {J : ι → ConnectionView ι → Prop}
    (h : ((loopSystem ι).restrict G).Reachable s) (hinit : ∀ {c v}, v.New → J c v)
    (hstep : ∀ {t a u c}, t.loop.Wf → J c (t.view c) → (loopSystem ι).enabled t a → G t a →
      (loopSystem ι).exec t a = .ok u → ConnectionView.Step c (t.view c) a (u.view c) →
      J c (u.view c)) : s.loop.Wf ∧ ∀ c, J c (s.view c) := by
  refine h.invariant (I := fun s => s.loop.Wf ∧ ∀ c, J c (s.view c)) (fun hs => ?_) ?_
  · obtain ⟨hwf, hnew⟩ := views_init hs
    exact ⟨hwf, fun c => hinit (hnew c)⟩
  · intro t a u ⟨hwf, hall⟩ henabled hexec
    obtain ⟨hwf', hviews⟩ := views_step hwf henabled.1 hexec
    exact ⟨hwf', fun c => hstep hwf (hall c) henabled.1 henabled.2 hexec (hviews c)⟩

end LoopRun

end Dalin.Net
