import RpcBench.Socket.Events

/-! # Stranded connections

The listener is registered edge-triggered, an event leads to one `accept`, and
connects that come before a delivery share one notification.  So a connect
that finds a notification undelivered leaves a connection in the backlog that
no notification stands for, and nothing ever makes up for it. -/
set_option autoImplicit false

namespace RpcBench.Socket

namespace Server

/-- Connections in the backlog that no notification stands for. -/
def stranded (s : Server) : Nat := s.sys.backlog.length - s.owed

/-- A connect whose notification joins one that is undelivered. -/
def collapses (s : Server) : Input → Bool
  | .connect => s.sys.listening.queued
  | _ => false

section Step

variable {s s' : Server}

theorem accepted_stranded {handling : Handling} {event : Event} {rest : List Event} {peer : Peer}
    {backlog : List Peer} (accepting : Accepting s handling event rest peer backlog) :
    (s.accepted handling rest peer backlog).stranded = s.stranded := by
  obtain ⟨batch, listener, _, queue⟩ := accepting
  obtain ⟨batch', listener'⟩ := erase_keeps handling.fd { s with batch := rest }
  have owed' : (s.accepted handling rest peer backlog).owed = owed { s with batch := rest } := by
    unfold owed accepted enroll listenerToken
    simp only [batch', listener']
    rfl
  have backlog' : (s.accepted handling rest peer backlog).sys.backlog = backlog := rfl
  unfold stranded
  rw [owed', backlog', owed_cons batch, if_pos listener, queue, List.length_cons]
  omega

theorem served_stranded {event : Event} {rest : List Event} {ep : BwServerEndpoint}
    {ctx : Context Host} (registry : Registry s) (serving : Serving s event rest ep)
    (outside : Host.SameOutside ep.sock s.sys ctx.sys) :
    (({ s with batch := rest } : Server).store ctx).stranded = s.stranded := by
  have owed' : (({ s with batch := rest } : Server).store ctx).owed =
      owed { s with batch := rest } := by
    unfold owed store listenerToken
    simp only [outside.listening]
  have backlog' : (({ s with batch := rest } : Server).store ctx).sys.backlog = s.sys.backlog :=
    outside.backlog
  unfold stranded
  rw [owed', backlog', owed_cons serving.batch, if_neg (serving.notListener registry)]
  rfl

theorem connect_stranded (registry : Registry s) (returned : s.step .connect = .running s') :
    s'.stranded = s.stranded + s.sys.listening.queued.toNat := by
  have accepts := registry.accepts
  simp only [step, Process.running.injEq] at returned
  subst returned
  unfold stranded owed listenerToken at *
  simp only [List.length_append, List.length_singleton]
  cases queued : s.sys.listening.queued with
  | false => simp only [queued, Bool.toNat_false, Bool.toNat_true] at *; omega
  | true => simp only [queued, Bool.toNat_true] at *; omega

theorem pollUntil_stranded (registry : Registry s) (picks : List Pick) :
    (s.pollUntil picks).stranded = s.stranded := by
  have kept := (pollUntil_rule (fun s' => s'.stranded = s.stranded) picks registry ?_ rfl).2
  · exact kept
  · intro s₁ pick registry₁ _ same
    obtain ⟨owed', backlog'⟩ := look_owed registry₁ pick
    rw [stranded, owed', backlog']
    exact same

/-- One step strands a connection if it is a connect that collapses, and no
step ever saves one. -/
theorem step_stranded (registry : Registry s) (input : Input)
    (returned : s.step input = .running s') :
    s'.stranded = s.stranded + (s.collapses input).toNat := by
  cases input with
  | connect => exact connect_stranded registry returned
  | hangUp fd reset =>
      cases returned
      rfl
  | hangUpQueued index reset =>
      cases returned
      unfold stranded owed listenerToken
      simp only [List.length_set]
      rfl
  | ready fd =>
      cases returned
      rfl
  | pollUntil picks =>
      cases returned
      exact pollUntil_stranded registry picks
  | handle handling =>
      have next := next_cases registry handling
      change s.next handling = .running s' at returned
      rw [returned] at next
      cases next with
      | idle => rfl
      | accepted accepting tolerable => exact accepted_stranded accepting
      | served serving done => exact served_stranded registry serving done.outside

end Step

def NoCollapse (process : Process) (inputs : List Input) : Prop :=
  Machine.Along Process.step (fun process input => process.Holds fun s => s.collapses input = false)
    process inputs

theorem run_stopped (reason : Stop) (inputs : List Input) :
    Machine.run Process.step (.stopped reason) inputs = .stopped reason := by
  induction inputs with
  | nil => rfl
  | cons input rest ih => exact ih

/-- Over a run the stranded connections grow, unless no connect collapses. -/
theorem run_stranded (inputs : List Input) :
    ∀ s s', Registry s → Machine.run Process.step (.running s) inputs = .running s' →
      s.stranded ≤ s'.stranded ∧
        (s'.stranded = s.stranded ↔ NoCollapse (.running s) inputs) := by
  induction inputs with
  | nil =>
      intro s s' _ reached
      cases reached
      exact ⟨le_rfl, fun _ => trivial, fun _ => rfl⟩
  | cons input rest ih =>
      intro s s' registry reached
      change Machine.run Process.step (s.step input) rest = .running s' at reached
      have registry' := step_registry registry input
      cases after : s.step input with
      | stopped reason =>
          rw [after, run_stopped] at reached
          cases reached
      | running s₁ =>
          rw [after] at reached registry'
          obtain ⟨grows, exact'⟩ := ih s₁ s' registry' reached
          have one := step_stranded registry input after
          refine ⟨by omega, ?_⟩
          have along : NoCollapse (.running s) (input :: rest) ↔
              s.collapses input = false ∧ NoCollapse (.running s₁) rest := by
            unfold NoCollapse
            rw [Machine.Along]
            change _ ∧ Machine.Along Process.step _ (s.step input) rest ↔ _
            rw [after]
            rfl
          rw [along, ← exact']
          cases collapses : s.collapses input with
          | false =>
              simp only [collapses, Bool.toNat_false, Nat.add_zero] at one
              rw [one]
              simp only [true_and]
          | true =>
              simp only [collapses, Bool.toNat_true] at one
              constructor
              · intro same
                omega
              · intro both
                obtain ⟨impossible, _⟩ := both
                cases impossible

/-- Where the loop waits and the listener has no undelivered notification, the
backlog is empty exactly if no connect of the run has collapsed. -/
theorem backlog_empty_iff_no_collapse (listener : RawFd) (maxEvents : Nat) (mem : Memory)
    (inputs : List Input) (s : Server)
    (reached : Machine.run Process.step (.running (init listener maxEvents mem)) inputs =
      .running s)
    (waiting : s.batch = []) (delivered : s.sys.listening.queued = false) :
    s.sys.backlog = [] ↔ NoCollapse (.running (init listener maxEvents mem)) inputs := by
  have exact' := (run_stranded inputs (init listener maxEvents mem) s
    (init_registry listener maxEvents mem) reached).2
  have none : (init listener maxEvents mem).stranded = 0 := rfl
  have all : s.stranded = s.sys.backlog.length := by
    simp [stranded, owed, waiting, delivered]
  rw [none, all] at exact'
  rw [← exact', List.length_eq_zero_iff]

def oneAfterAnother : List Input :=
  [.connect, .pollUntil [⟨3, true, false⟩], .handle (smooth 5 100),
    .connect, .pollUntil [⟨3, true, false⟩], .handle (smooth 6 101)]

theorem backlog_empty_one_after_another :
    NoCollapse (.running (init 3 8 emptyMemory)) oneAfterAnother ∧
      (Machine.run Process.step (.running (init 3 8 emptyMemory)) oneAfterAnother).Holds
        fun s => s.batch = [] ∧ s.sys.backlog = [] := by
  have noCollapse : NoCollapse (.running (init 3 8 emptyMemory)) oneAfterAnother :=
    ⟨rfl, rfl, rfl, rfl, rfl, rfl, trivial⟩
  refine ⟨noCollapse, rfl, ?_⟩
  exact (backlog_empty_iff_no_collapse 3 8 emptyMemory oneAfterAnother _ rfl rfl rfl).mpr noCollapse

/-- Two clients connect before the first delivery; the second is stranded. -/
theorem second_client_stranded :
    ¬∀ inputs s, Machine.run Process.step (.running (init 3 8 emptyMemory)) inputs = .running s →
      s.batch = [] → s.sys.listening.queued = false → s.sys.backlog = [] := by
  intro always
  have empty := always
    [.connect, .connect, .pollUntil [⟨3, true, false⟩], .handle (smooth 5 100)] _ rfl rfl rfl
  cases empty

end Server

end RpcBench.Socket
