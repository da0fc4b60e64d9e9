import RpcBench.Grpc.AsyncServer
import Mathlib.Data.List.Induction

/-! # One armed call, one reply, one deletion

The invariant pairs the live objects with the registrations and replies that
are outstanding: each object has one, of the kind that its status names. -/
set_option autoImplicit false

namespace RpcBench.Grpc

open Machine

variable {Request Reply : Type}

def opOf (cell : Nat × AsyncServerCall Request Reply) : Op where
  kind := if cell.2.status = .finish then .finish else .request
  cq := cell.2.cq
  tag := cell.1
  serial := cell.2.serial

/-- The object waits for an RPC of its queue, or has one that was not
delivered. -/
def armedOn (cq : Nat) (cell : Nat × AsyncServerCall Request Reply) : Bool :=
  cell.2.cq = cq ∧ cell.2.status = .process

def answering (cell : Nat × AsyncServerCall Request Reply) : Bool := cell.2.status = .finish

namespace Server

structure Books (result : Reply) (cells : List (Nat × AsyncServerCall Request Reply))
    (server : Server Request Reply) : Prop where
  intact : server.fault = false
  paired : server.outstanding.Perm (cells.map opOf)
  proceeded : ∀ cell ∈ cells, cell.2.status ≠ .create
  armed : ∀ cq, cells.countP (armedOn cq) = if cq ∈ server.threads then 1 else 0
  requests : ∀ op ∈ server.registered, op.kind = .request
  replies : ∀ op ∈ server.replying, op.kind = .finish
  serials : (cells.map (fun cell => cell.2.serial) ++ server.deleted).Perm
    (List.range server.made)
  answered : (server.finished.map Prod.fst).Perm
    ((cells.filter answering).map (fun cell => cell.2.serial) ++ server.deleted)
  served : (server.matched.map Prod.fst).Perm
    (server.finished.map Prod.fst ++
      (server.events.filter fun op => op.kind = .request).map Op.serial)
  results : ∀ cell ∈ cells, cell.2.result = result
  replied : ∀ reply ∈ server.finished, reply.2 = result
  deletions : server.deleted =
    (server.delivered.filter fun op => op.kind = .finish).map Op.serial

def Sound (result : Reply) (server : Server Request Reply) : Prop :=
  Books result server.heap.cells server

variable {result : Reply} {server : Server Request Reply}
  {cells cells' : List (Nat × AsyncServerCall Request Reply)}

theorem Books.perm (books : Books result cells server) (same : cells.Perm cells') :
    Books result cells' server where
  intact := books.intact
  paired := books.paired.trans (same.map opOf)
  proceeded := fun cell member => books.proceeded cell (same.mem_iff.mpr member)
  armed := fun cq => (same.countP_eq (armedOn cq)).symm.trans (books.armed cq)
  requests := books.requests
  replies := books.replies
  serials := ((same.symm.map _).append_right _).trans books.serials
  answered := books.answered.trans (((same.filter _).map _).append_right _)
  served := books.served
  results := fun cell member => books.results cell (same.mem_iff.mpr member)
  replied := books.replied
  deletions := books.deletions

theorem sound_init : Sound result (init : Server Request Reply) := by
  constructor
  case intact => rfl
  case paired => exact List.Perm.nil
  case proceeded =>
    intro cell member
    cases member
  case armed =>
    intro cq
    exact (if_neg List.not_mem_nil).symm
  case requests =>
    intro op member
    cases member
  case replies =>
    intro op member
    cases member
  case serials => exact List.Perm.nil
  case answered => exact List.Perm.nil
  case served => exact List.Perm.nil
  case results =>
    intro cell member
    cases member
  case replied =>
    intro reply member
    cases member
  case deletions => rfl

theorem Books.owner (books : Books result cells server) {op : Op}
    (member : op ∈ server.outstanding) :
    ∃ call, (op.tag, call) ∈ cells ∧ opOf (op.tag, call) = op := by
  obtain ⟨cell, present, same⟩ := List.mem_map.mp (books.paired.mem_iff.mp member)
  obtain ⟨address, call⟩ := cell
  have here : address = op.tag := congrArg Op.tag same
  subst here
  exact ⟨call, present, same⟩

/-! ## The operations, up to the order of the cells -/

def successor (result : Reply) (cq serial : Nat) : AsyncServerCall Request Reply :=
  { serial, cq, status := .process, request := none, result }

/-- What the constructor calls last is `Proceed`, on the new object. -/
theorem construct_eq_proceed (server : Server Request Reply) (result : Reply) (cq : Nat)
    {this : Nat} (fresh : server.heap.Fresh this) (unused : Nat) :
    server.construct result cq this =
      (server.allocate result cq this).proceed result unused this := by
  have allocated : (server.allocate result cq this).heap.cells =
      (this, { serial := server.made, cq, status := .create, request := none, result }) ::
        server.heap.cells := Heap.cells_alloc fresh
  have found := Heap.get?_eq_some_iff.mpr (allocated ▸ List.mem_cons_self)
  unfold proceed
  rw [found]
  rfl

theorem construct_spec (server : Server Request Reply) (result : Reply) (cq : Nat) {this : Nat}
    (fresh : server.heap.Fresh this) :
    ∃ heap, server.construct result cq this =
        { server with
          heap
          made := server.made + 1
          registered := server.registered ++
            [{ kind := .request, cq, tag := this, serial := server.made }] } ∧
      heap.cells.Perm ((this, successor result cq server.made) :: server.heap.cells) := by
  have allocated : (server.allocate result cq this).heap.cells =
      (this, { serial := server.made, cq, status := .create, request := none, result }) ::
        server.heap.cells := Heap.cells_alloc fresh
  have member : (this, { serial := server.made, cq, status := .create, request := none, result }) ∈
      (server.allocate result cq this).heap.cells := by
    rw [allocated]
    exact List.mem_cons_self
  have found := Heap.get?_eq_some_iff.mpr member
  have written := Heap.perm_set (successor result cq server.made) ⟨_, member⟩
  have rest := Heap.perm_free member
  rw [allocated] at rest
  refine ⟨_, ?_, written.trans (List.Perm.cons _ rest.cons_inv.symm)⟩
  unfold construct arm
  rw [found]
  rfl

theorem finish_spec {this : Nat} {call : AsyncServerCall Request Reply}
    (member : (this, call) ∈ server.heap.cells) :
    ∃ heap, server.finish this =
        { server with
          heap
          replying := server.replying ++
            [{ kind := .finish, cq := call.cq, tag := this, serial := call.serial }]
          finished := server.finished ++ [(call.serial, call.result)] } ∧
      heap.cells.Perm ((this, { call with status := .finish }) ::
        (server.heap.free this).cells) := by
  refine ⟨_, ?_, Heap.perm_set _ ⟨call, member⟩⟩
  unfold finish
  rw [Heap.get?_eq_some_iff.mpr member]

theorem proceed_process (server : Server Request Reply) {this fresh : Nat}
    {call : AsyncServerCall Request Reply}
    (member : (this, call) ∈ server.heap.cells) (status : call.status = .process)
    (unused : server.heap.Fresh fresh) (result : Reply) :
    ∃ heap, server.proceed result fresh this =
        { server with
          heap
          made := server.made + 1
          registered := server.registered ++
            [{ kind := .request, cq := call.cq, tag := fresh, serial := server.made }]
          replying := server.replying ++
            [{ kind := .finish, cq := call.cq, tag := this, serial := call.serial }]
          finished := server.finished ++ [(call.serial, call.result)] } ∧
      heap.cells.Perm ((this, { call with status := .finish }) ::
        (fresh, successor result call.cq server.made) :: (server.heap.free this).cells) := by
  obtain ⟨heap₁, constructed, order₁⟩ := construct_spec server result call.cq unused
  have member₁ : (this, call) ∈ (server.construct result call.cq fresh).heap.cells := by
    rw [constructed]
    exact order₁.mem_iff.mpr (List.mem_cons_of_mem _ member)
  obtain ⟨heap₂, finished, order₂⟩ := finish_spec member₁
  have rest₁ := Heap.perm_free member₁
  have rest := Heap.perm_free member
  refine ⟨heap₂, ?_, order₂.trans (List.Perm.cons _ ?_)⟩
  · unfold proceed
    rw [Heap.get?_eq_some_iff.mpr member]
    simp only [status]
    rw [finished, constructed]
  · rw [constructed] at rest₁ ⊢
    have swapped : ((this, call) :: (heap₁.free this).cells).Perm
        ((this, call) :: (fresh, successor result call.cq server.made) ::
          (server.heap.free this).cells) :=
      (rest₁.symm.trans order₁).trans ((rest.cons _).trans (List.Perm.swap _ _ _))
    exact swapped.cons_inv

theorem proceed_finish (server : Server Request Reply) {this : Nat}
    {call : AsyncServerCall Request Reply}
    (member : (this, call) ∈ server.heap.cells) (status : call.status = .finish)
    (result : Reply) (fresh : Nat) :
    server.proceed result fresh this =
      { server with
        heap := server.heap.free this
        deleted := server.deleted ++ [call.serial] } := by
  unfold proceed
  rw [Heap.get?_eq_some_iff.mpr member]
  simp only [status]

/-! ## What each input preserves -/

theorem Sound.start (sound : Sound result server) {cq fresh : Nat} (stopped : cq ∉ server.threads)
    (unused : server.heap.Fresh fresh) :
    Sound result
      (construct result cq fresh { server with threads := server.threads ++ [cq] }) := by
  obtain ⟨heap, constructed, order⟩ :=
    construct_spec { server with threads := server.threads ++ [cq] } result cq unused
  rw [constructed]
  apply Books.perm _ order.symm
  constructor
  case intact => exact sound.intact
  case paired =>
    let registration : Op := { kind := .request, cq, tag := fresh, serial := server.made }
    have moved : (server.registered ++ [registration] ++ server.replying ++ server.events).Perm
        (registration :: server.outstanding) := by
      unfold outstanding
      simp only [List.append_assoc, List.singleton_append]
      exact List.perm_middle
    exact moved.trans (sound.paired.cons _)
  case proceeded =>
    intro cell member
    cases List.mem_cons.mp member with
    | inl new =>
        rw [new]
        exact CallStatus.noConfusion
    | inr old => exact sound.proceeded cell old
  case armed =>
    intro other
    have before := sound.armed other
    rw [List.countP_cons, before]
    by_cases same : other = cq
    · subst same
      simp [armedOn, successor, stopped]
    · simp [armedOn, successor, same, Ne.symm same]
  case requests =>
    intro op member
    cases List.mem_append.mp member with
    | inl old => exact sound.requests op old
    | inr new => rw [List.mem_singleton.mp new]
  case replies => exact sound.replies
  case serials =>
    have moved : ([server.made] ++ List.range server.made).Perm
        (List.range server.made ++ [server.made]) := List.perm_append_comm
    rw [List.range_succ]
    exact (sound.serials.cons _).trans moved
  case answered => exact sound.answered
  case served => exact sound.served
  case results =>
    intro cell member
    cases List.mem_cons.mp member with
    | inl new => rw [new]; rfl
    | inr old => exact sound.results cell old
  case replied => exact sound.replied
  case deletions => exact sound.deletions

theorem moved_perm {ops others : List Op} {index : Nat} {op : Op}
    (found : ops[index]? = some op) (front : List Op) :
    (front ++ ops.eraseIdx index ++ (others ++ [op])).Perm (front ++ ops ++ others) := by
  obtain ⟨inside, rfl⟩ := List.getElem?_eq_some_iff.mp found
  have taken := List.getElem_cons_eraseIdx_perm inside
  have last : (others ++ [ops[index]]).Perm (ops[index] :: others) := List.perm_append_comm
  have middle : (ops.eraseIdx index ++ ops[index] :: others).Perm
      (ops[index] :: (ops.eraseIdx index ++ others)) := List.perm_middle
  rw [List.append_assoc, List.append_assoc]
  exact (((last.append_left _).trans middle).trans (taken.append_right others)).append_left front

theorem Sound.incoming (sound : Sound result server) {index : Nat} {op : Op}
    (found : server.registered[index]? = some op) (request : Request) :
    Sound result (receive op request
      { server with
        registered := server.registered.eraseIdx index
        events := server.events ++ [op] }) := by
  have registered : op ∈ server.registered := List.mem_of_getElem? found
  have outstanding : op ∈ server.outstanding :=
    List.mem_append_left _ (List.mem_append_left _ registered)
  obtain ⟨call, member, same⟩ := sound.owner outstanding
  have kind := sound.requests op registered
  have unchanged : opOf (op.tag, { call with request := some request }) = opOf (op.tag, call) := rfl
  have books := Books.perm sound (Heap.perm_free member)
  unfold receive
  simp only [Heap.get?_eq_some_iff.mpr member]
  apply Books.perm _ (Heap.perm_set _ ⟨call, member⟩).symm
  constructor
  case intact => exact sound.intact
  case paired =>
    have moved : (server.registered.eraseIdx index ++ server.replying ++
        (server.events ++ [op])).Perm server.outstanding := by
      have swap : (server.registered.eraseIdx index ++ server.replying).Perm
          (server.replying ++ server.registered.eraseIdx index) := List.perm_append_comm
      have back : (server.replying ++ server.registered ++ server.events).Perm
          server.outstanding := List.Perm.append_right _ List.perm_append_comm
      exact ((swap.append_right _).trans (moved_perm found server.replying)).trans back
    exact moved.trans books.paired
  case proceeded =>
    intro cell member'
    cases List.mem_cons.mp member' with
    | inl here =>
        rw [here]
        exact sound.proceeded (op.tag, call) member
    | inr other => exact books.proceeded cell (List.mem_cons_of_mem _ other)
  case armed => exact books.armed
  case requests =>
    intro other member'
    exact sound.requests other (List.mem_of_mem_eraseIdx member')
  case replies => exact sound.replies
  case serials => exact books.serials
  case answered =>
    have before := books.answered
    have written : answering (op.tag, { call with request := some request }) =
        answering (op.tag, call) := rfl
    rw [List.filter_cons] at before ⊢
    rw [written]
    cases status : answering (op.tag, call) with
    | true =>
        rw [status] at before
        exact before
    | false =>
        rw [status] at before
        exact before
  case served =>
    rw [List.map_append, List.filter_append, List.map_append, ← List.append_assoc]
    have counted : [op].filter (fun op => decide (op.kind = .request)) = [op] := by
      simp [kind]
    rw [counted]
    exact sound.served.append_right _
  case results =>
    intro cell member'
    cases List.mem_cons.mp member' with
    | inl here =>
        rw [here]
        exact sound.results (op.tag, call) member
    | inr other => exact books.results cell (List.mem_cons_of_mem _ other)
  case replied => exact sound.replied
  case deletions => exact sound.deletions

theorem Sound.sent (sound : Sound result server) {index : Nat} {op : Op}
    (found : server.replying[index]? = some op) :
    Sound result
      { server with
        replying := server.replying.eraseIdx index
        events := server.events ++ [op] } := by
  have kind := sound.replies op (List.mem_of_getElem? found)
  constructor
  case intact => exact sound.intact
  case paired => exact (moved_perm found server.registered).trans sound.paired
  case proceeded => exact sound.proceeded
  case armed => exact sound.armed
  case requests => exact sound.requests
  case replies =>
    intro other member
    exact sound.replies other (List.mem_of_mem_eraseIdx member)
  case serials => exact sound.serials
  case answered => exact sound.answered
  case served =>
    have skipped : [op].filter (fun op => decide (op.kind = .request)) = [] := by
      simp [kind]
    rw [List.filter_append, skipped, List.append_nil]
    exact sound.served
  case results => exact sound.results
  case replied => exact sound.replied
  case deletions => exact sound.deletions

theorem events_split {events : List Op} {cq : Nat} {op : Op}
    (found : events.find? (·.cq == cq) = some op) :
    ∃ front back, events = front ++ op :: back ∧
      events.eraseP (·.cq == cq) = front ++ back := by
  obtain ⟨mine, front, back, split, others⟩ := List.find?_eq_some_iff_append.mp found
  refine ⟨front, back, split, ?_⟩
  have passed : ∀ other ∈ front, ¬(other.cq == cq) = true := by
    intro other member
    have notMine := others other member
    simpa using notMine
  rw [split, List.eraseP_append_right _ passed, List.eraseP_cons, mine, cond_true]

section Next

variable {op : Op} {front back : List Op} {call : AsyncServerCall Request Reply} {fresh : Nat}

/-- What is outstanding, without the tag that is delivered, belongs to the
other objects. -/
theorem Sound.others (sound : Sound result server)
    (split : server.events = front ++ op :: back)
    (member : (op.tag, call) ∈ server.heap.cells) (same : opOf (op.tag, call) = op) :
    (server.registered ++ server.replying ++ (front ++ back)).Perm
      ((server.heap.free op.tag).cells.map opOf) := by
  have paired := (Books.perm sound (Heap.perm_free member)).paired
  rw [List.map_cons, same, outstanding, split] at paired
  have moved : (op :: (server.registered ++ server.replying ++ (front ++ back))).Perm
      (server.registered ++ server.replying ++ (front ++ op :: back)) := by
    rw [← List.append_assoc, ← List.append_assoc]
    exact List.perm_middle.symm
  exact (moved.trans paired).cons_inv

theorem Sound.next_process (sound : Sound result server)
    (split : server.events = front ++ op :: back)
    (member : (op.tag, call) ∈ server.heap.cells) (same : opOf (op.tag, call) = op)
    (status : call.status = .process) (unused : server.heap.Fresh fresh) :
    Sound result (proceed result fresh op.tag
      { server with events := front ++ back, delivered := server.delivered ++ [op] }) := by
  have books := Books.perm sound (Heap.perm_free member)
  have kind : op.kind = .request := by
    rw [← same]
    simp [opOf, status]
  have serial : op.serial = call.serial := by rw [← same]; rfl
  let registration : Op :=
    { kind := .request, cq := call.cq, tag := fresh, serial := server.made }
  let reply : Op := { kind := .finish, cq := call.cq, tag := op.tag, serial := call.serial }
  obtain ⟨heap, proceeded, order⟩ := proceed_process
    { server with events := front ++ back, delivered := server.delivered ++ [op] }
    member status unused result
  rw [proceeded]
  apply Books.perm _ order.symm
  constructor
  case intact => exact sound.intact
  case paired =>
    have moved : (server.registered ++ [registration] ++ (server.replying ++ [reply]) ++
        (front ++ back)).Perm (reply :: registration ::
          (server.registered ++ server.replying ++ (front ++ back))) := by
      apply List.perm_iff_count.mpr
      intro other
      simp only [List.count_append, List.count_cons, List.count_nil]
      omega
    exact moved.trans (((sound.others split member same).cons registration).cons reply)
  case proceeded =>
    intro cell present
    cases List.mem_cons.mp present with
    | inl here =>
        rw [here]
        exact CallStatus.noConfusion
    | inr rest =>
        cases List.mem_cons.mp rest with
        | inl new =>
            rw [new]
            exact CallStatus.noConfusion
        | inr old => exact books.proceeded cell (List.mem_cons_of_mem _ old)
  case armed =>
    intro cq
    have before := books.armed cq
    rw [List.countP_cons] at before
    rw [List.countP_cons, List.countP_cons]
    have here : armedOn cq (op.tag, call) =
        armedOn cq (fresh, (successor result call.cq server.made : AsyncServerCall Request Reply)) := by
      simp [armedOn, successor, status]
    have gone : armedOn cq (op.tag, { call with status := .finish }) = false := by
      simp [armedOn]
    rw [gone, ← before, here]
    simp
  case requests =>
    intro other present
    cases List.mem_append.mp present with
    | inl old => exact sound.requests other old
    | inr new => rw [List.mem_singleton.mp new]
  case replies =>
    intro other present
    cases List.mem_append.mp present with
    | inl old => exact sound.replies other old
    | inr new => rw [List.mem_singleton.mp new]
  case serials =>
    have before := books.serials
    rw [List.range_succ]
    apply List.perm_iff_count.mpr
    intro other
    have counts := List.perm_iff_count.mp before other
    simp only [List.map_cons, List.cons_append, List.count_append, List.count_cons, List.count_nil,
      successor] at counts ⊢
    omega
  case answered =>
    have before := books.answered
    have waiting : answering (op.tag, call) = false := by simp [answering, status]
    have finished : answering (op.tag, { call with status := .finish }) = true := by
      simp [answering]
    have armed : answering (fresh, (successor result call.cq server.made :
        AsyncServerCall Request Reply)) = false := by
      simp [answering, successor]
    rw [List.filter_cons, waiting] at before
    rw [List.filter_cons, finished, List.filter_cons, armed]
    apply List.perm_iff_count.mpr
    intro other
    have counts := List.perm_iff_count.mp before other
    simp only [Bool.false_eq_true, if_false, if_true, List.map_append, List.map_cons, List.map_nil,
      List.cons_append, List.count_append, List.count_cons, List.count_nil] at counts ⊢
    omega
  case served =>
    have before := sound.served
    have counted : decide (op.kind = .request) = true := by simp [kind]
    rw [split, List.filter_append, List.filter_cons, counted] at before
    rw [List.filter_append]
    apply List.perm_iff_count.mpr
    intro other
    have counts := List.perm_iff_count.mp before other
    simp only [if_true, List.map_append, List.map_cons, List.map_nil, serial,
      List.count_append, List.count_cons, List.count_nil] at counts ⊢
    omega
  case results =>
    intro cell present
    cases List.mem_cons.mp present with
    | inl here =>
        rw [here]
        exact sound.results (op.tag, call) member
    | inr rest =>
        cases List.mem_cons.mp rest with
        | inl new => rw [new]; rfl
        | inr old => exact books.results cell (List.mem_cons_of_mem _ old)
  case replied =>
    intro answer present
    cases List.mem_append.mp present with
    | inl old => exact sound.replied answer old
    | inr new =>
        rw [List.mem_singleton.mp new]
        exact sound.results (op.tag, call) member
  case deletions =>
    have skipped : [op].filter (fun op => decide (op.kind = .finish)) = [] := by
      simp [kind]
    rw [List.filter_append, skipped, List.append_nil]
    exact sound.deletions

theorem Sound.next_finish (sound : Sound result server)
    (split : server.events = front ++ op :: back)
    (member : (op.tag, call) ∈ server.heap.cells) (same : opOf (op.tag, call) = op)
    (status : call.status = .finish) :
    Sound result (proceed result fresh op.tag
      { server with events := front ++ back, delivered := server.delivered ++ [op] }) := by
  have books := Books.perm sound (Heap.perm_free member)
  have kind : op.kind = .finish := by
    rw [← same]
    simp [opOf, status]
  have serial : op.serial = call.serial := by rw [← same]; rfl
  rw [proceed_finish
    { server with events := front ++ back, delivered := server.delivered ++ [op] } member status]
  constructor
  case intact => exact sound.intact
  case paired => exact sound.others split member same
  case proceeded =>
    intro cell present
    exact books.proceeded cell (List.mem_cons_of_mem _ present)
  case armed =>
    intro cq
    have before := books.armed cq
    have gone : armedOn cq (op.tag, call) = false := by simp [armedOn, status]
    rw [List.countP_cons, gone] at before
    exact before
  case requests => exact sound.requests
  case replies => exact sound.replies
  case serials =>
    have before := books.serials
    apply List.perm_iff_count.mpr
    intro other
    have counts := List.perm_iff_count.mp before other
    simp only [List.map_cons, List.cons_append, List.count_append, List.count_cons,
      List.count_nil] at counts ⊢
    omega
  case answered =>
    have before := books.answered
    have finished : answering (op.tag, call) = true := by simp [answering, status]
    rw [List.filter_cons, finished] at before
    apply List.perm_iff_count.mpr
    intro other
    have counts := List.perm_iff_count.mp before other
    simp only [if_true, List.map_cons, List.cons_append, List.count_append, List.count_cons,
      List.count_nil] at counts ⊢
    omega
  case served =>
    have before := sound.served
    have skipped : decide (op.kind = .request) = false := by simp [kind]
    rw [split, List.filter_append, List.filter_cons, skipped] at before
    rw [List.filter_append]
    exact before
  case results =>
    intro cell present
    exact books.results cell (List.mem_cons_of_mem _ present)
  case replied => exact sound.replied
  case deletions =>
    have counted : [op].filter (fun op => decide (op.kind = .finish)) = [op] := by
      simp [kind]
    have before : server.deleted =
        (server.delivered.filter fun op => op.kind = .finish).map Op.serial := sound.deletions
    rw [List.filter_append, counted, List.map_append, List.map_cons, List.map_nil, serial, before]

end Next

theorem Sound.step (sound : Sound result server) (input : Input Request) :
    Sound result (server.step result input) := by
  cases input with
  | start cq fresh =>
      simp only [Server.step]
      split
      · exact sound
      · next usable =>
          obtain ⟨stopped, unused⟩ := not_or.mp usable
          exact sound.start stopped (not_not.mp unused)
  | incoming index request =>
      simp only [Server.step]
      cases found : server.registered[index]? with
      | none => exact sound
      | some op => exact sound.incoming found request
  | sent index =>
      simp only [Server.step]
      cases found : server.replying[index]? with
      | none => exact sound
      | some op => exact sound.sent found
  | next cq fresh =>
      simp only [Server.step]
      split
      · exact sound
      · next usable =>
          cases found : server.events.find? (·.cq == cq) with
          | none => exact sound
          | some op =>
              obtain ⟨front, back, split, erased⟩ := events_split found
              have outstanding : op ∈ server.outstanding := by
                apply List.mem_append_right
                rw [split]
                exact List.mem_append_right _ List.mem_cons_self
              obtain ⟨call, member, same⟩ := sound.owner outstanding
              simp only [erased]
              cases status : call.status with
              | create => exact absurd status (sound.proceeded (op.tag, call) member)
              | process => exact sound.next_process split member same status (not_not.mp usable)
              | finish => exact sound.next_finish split member same status

theorem sound_run (result : Reply) (inputs : List (Input Request)) :
    Sound result (run (step result) init inputs) := by
  apply run_invariant
  · intro server input sound
    exact sound.step input
  · exact sound_init

/-! ## The threads -/

theorem threads_arm (this : Nat) (server : Server Request Reply) :
    (server.arm this).threads = server.threads := by
  unfold arm
  split
  · rfl
  · rfl

theorem threads_construct (result : Reply) (cq this : Nat) (server : Server Request Reply) :
    (server.construct result cq this).threads = server.threads :=
  threads_arm this (server.allocate result cq this)

theorem threads_proceed (result : Reply) (fresh this : Nat) (server : Server Request Reply) :
    (server.proceed result fresh this).threads = server.threads := by
  unfold proceed
  split
  · rfl
  · next call _ =>
      split
      · exact threads_arm this server
      · rw [finish]
        split
        · exact threads_construct result call.cq fresh server
        · exact threads_construct result call.cq fresh server
      · rfl

theorem mem_threads_step (server : Server Request Reply) (input : Input Request) (cq : Nat) :
    cq ∈ (server.step result input).threads ↔
      cq ∈ server.threads ∨ ∃ fresh, input = .start cq fresh ∧ server.heap.Fresh fresh := by
  cases input with
  | start cq' fresh =>
      simp only [step]
      split
      · next idle =>
          constructor
          · exact Or.inl
          · intro either
            rcases either with running | ⟨fresh', same, unused⟩
            · exact running
            · obtain ⟨rfl, rfl⟩ := Input.start.inj same
              exact idle.resolve_right (not_not.mpr unused)
      · next usable =>
          obtain ⟨_, unused⟩ := not_or.mp usable
          rw [threads_construct, List.mem_append, List.mem_singleton]
          apply or_congr_right
          constructor
          · intro same
            exact ⟨fresh, by rw [same], not_not.mp unused⟩
          · intro started
            obtain ⟨fresh', same, _⟩ := started
            exact (Input.start.inj same).1.symm
  | incoming index request =>
      have same : (server.step result (.incoming index request)).threads = server.threads := by
        simp only [step, receive]
        split
        · rfl
        · split
          · rfl
          · rfl
      simp [same]
  | sent index =>
      have same : (server.step result (.sent index)).threads = server.threads := by
        simp only [step]
        split
        · rfl
        · rfl
      simp [same]
  | next cq' fresh =>
      have same : (server.step result (.next cq' fresh)).threads = server.threads := by
        simp only [step]
        split
        · rfl
        · split
          · rfl
          · exact threads_proceed _ _ _ _
      simp [same]

def Starts (result : Reply) (inputs : List (Input Request)) (cq : Nat) : Prop :=
  ∃ earlier fresh later, inputs = earlier ++ .start cq fresh :: later ∧
    (run (step result) init earlier).heap.Fresh fresh

theorem mem_threads_run (result : Reply) (inputs : List (Input Request)) (cq : Nat) :
    cq ∈ (run (step result) init inputs).threads ↔ Starts result inputs cq := by
  induction inputs using List.reverseRecOn with
  | nil =>
      constructor
      · intro running
        cases running
      · intro started
        obtain ⟨earlier, fresh, later, same, _⟩ := started
        exact absurd same (by simp)
  | append_singleton inputs input ih =>
      rw [run_append, run_cons, run_nil, mem_threads_step, ih]
      constructor
      · intro either
        rcases either with ⟨earlier, fresh, later, rfl, unused⟩ | ⟨fresh, rfl, unused⟩
        · exact ⟨earlier, fresh, later ++ [input], by simp, unused⟩
        · exact ⟨inputs, fresh, [], rfl, unused⟩
      · intro started
        obtain ⟨earlier, fresh, later, same, unused⟩ := started
        rcases List.eq_nil_or_concat later with rfl | ⟨before, last, rfl⟩
        · obtain ⟨rfl, rfl⟩ := List.append_singleton_inj.mp same
          exact Or.inr ⟨fresh, rfl, unused⟩
        · refine Or.inl ⟨earlier, fresh, before, ?_, unused⟩
          have split : inputs ++ [input] = (earlier ++ .start cq fresh :: before) ++ [last] := by
            rw [same]
            simp
          exact (List.append_singleton_inj.mp split).1

/-- What holds between two calls of `Proceed`. -/
structure Lifecycle (result : Reply) (server : Server Request Reply) : Prop where
  /-- one call of each queue is armed, the others wait for their reply to be out -/
  one_armed : ∀ cq ∈ server.threads, ∃ this call, (this, call) ∈ server.heap.cells ∧
    call.cq = cq ∧ call.status = .process ∧
    { kind := .request, cq, tag := this, serial := call.serial } ∈ server.outstanding ∧
    ∀ other ∈ server.heap.cells, other.2.cq = cq → other ≠ (this, call) →
      other.2.status = .finish ∧
      { kind := .finish, cq, tag := other.1, serial := other.2.serial } ∈ server.outstanding
  /-- an RPC has one `Finish`, once the tag of its call was delivered -/
  one_finish : (server.matched.map Prod.fst).Nodup ∧ (server.finished.map Prod.fst).Nodup ∧
    ∀ serial, serial ∈ server.matched.map Prod.fst ↔
      serial ∈ server.finished.map Prod.fst ∨
        ∃ op ∈ server.events, op.kind = .request ∧ op.serial = serial
  replies : ∀ reply ∈ server.finished, reply.2 = result
  /-- every object is live or was deleted, on the event of its own `Finish` -/
  one_deletion :
    (server.heap.cells.map (fun cell => cell.2.serial) ++ server.deleted).Perm
      (List.range server.made) ∧
    server.deleted = (server.delivered.filter fun op => op.kind = .finish).map Op.serial ∧
    ∀ serial ∈ server.deleted, serial ∈ server.finished.map Prod.fst
  /-- every tag still to be delivered is that of the live object it was given for -/
  no_dangling : server.fault = false ∧ ∀ op ∈ server.outstanding,
    op.serial ∉ server.deleted ∧
      ∃ call, server.heap.get? op.tag = some call ∧ call.serial = op.serial

theorem Books.one_armed (books : Books result cells server) {cq : Nat}
    (started : cq ∈ server.threads) :
    ∃ this call, (this, call) ∈ cells ∧ call.cq = cq ∧ call.status = .process ∧
      ∀ other ∈ cells, other.2.cq = cq → other ≠ (this, call) → other.2.status = .finish := by
  have count := books.armed cq
  rw [if_pos started, List.countP_eq_length_filter] at count
  obtain ⟨⟨this, call⟩, alone⟩ := List.length_eq_one_iff.mp count
  have present : (this, call) ∈ cells.filter (armedOn cq) := by
    rw [alone]
    exact List.mem_singleton_self _
  obtain ⟨member, armed⟩ := List.mem_filter.mp present
  obtain ⟨queue, status⟩ := of_decide_eq_true armed
  refine ⟨this, call, member, queue, status, ?_⟩
  intro other otherMember otherQueue different
  cases otherStatus : other.2.status with
  | create => exact absurd otherStatus (books.proceeded other otherMember)
  | process =>
      have also : other ∈ cells.filter (armedOn cq) :=
        List.mem_filter.mpr ⟨otherMember, decide_eq_true ⟨otherQueue, otherStatus⟩⟩
      rw [alone] at also
      exact absurd (List.mem_singleton.mp also) different
  | finish => rfl

/-- A serial is that of a live object or of a deleted one, not of both. -/
theorem Books.serials_nodup (books : Books result cells server) :
    (cells.map (fun cell => cell.2.serial) ++ server.deleted).Nodup :=
  books.serials.nodup_iff.mpr List.nodup_range

theorem Books.finished_nodup (books : Books result cells server) :
    (server.finished.map Prod.fst).Nodup := by
  have kept : (((cells.filter answering).map fun cell => cell.2.serial) ++
      server.deleted).Sublist (cells.map (fun cell => cell.2.serial) ++ server.deleted) :=
    (List.filter_sublist.map _).append_right _
  exact books.answered.nodup_iff.mpr (kept.nodup books.serials_nodup)

theorem Books.requests_perm (books : Books result cells server) :
    ((server.outstanding.filter fun op => op.kind = .request).map Op.serial).Perm
      ((cells.filter fun cell => !answering cell).map fun cell => cell.2.serial) := by
  have kinds : (fun op : Op => decide (op.kind = .request)) ∘ opOf =
      fun cell : Nat × AsyncServerCall Request Reply => !answering cell := by
    funext cell
    by_cases finishing : cell.2.status = .finish
    · simp [opOf, answering, finishing]
    · simp [opOf, answering, finishing]
  have paired := (books.paired.filter fun op => decide (op.kind = .request)).map Op.serial
  rw [List.filter_map, kinds, List.map_map] at paired
  exact paired

theorem Books.matched_nodup (books : Books result cells server) :
    (server.matched.map Prod.fst).Nodup := by
  have waiting : ((server.events.filter fun op => op.kind = .request).map Op.serial).Sublist
      ((server.outstanding.filter fun op => op.kind = .request).map Op.serial) :=
    ((List.sublist_append_right _ _).filter _).map _
  have answered : (server.finished.map Prod.fst ++
      (server.outstanding.filter fun op => op.kind = .request).map Op.serial).Perm
        (cells.map (fun cell => cell.2.serial) ++ server.deleted) := by
    have both := (List.filter_append_perm answering cells).map fun cell => cell.2.serial
    apply (books.answered.append books.requests_perm).trans
    apply List.perm_iff_count.mpr
    intro serial
    have counts := List.perm_iff_count.mp both serial
    simp only [List.map_append, List.count_append] at counts ⊢
    omega
  have nodup := answered.nodup_iff.mpr books.serials_nodup
  apply books.served.nodup_iff.mpr
  exact (waiting.append_left _).nodup nodup

theorem Sound.lifecycle (sound : Sound result server) : Lifecycle result server := by
  constructor
  case one_armed =>
    intro cq started
    obtain ⟨this, call, member, queue, status, others⟩ := Books.one_armed sound started
    have outstanding : ∀ cell ∈ server.heap.cells, opOf cell ∈ server.outstanding := by
      intro cell present
      exact sound.paired.mem_iff.mpr (List.mem_map_of_mem present)
    refine ⟨this, call, member, queue, status, ?_, ?_⟩
    · have registered := outstanding (this, call) member
      simp only [opOf, status, queue] at registered
      exact registered
    · intro other present otherQueue different
      have finishing := others other present otherQueue different
      have replying := outstanding other present
      simp only [opOf, finishing, otherQueue, if_true] at replying
      exact ⟨finishing, replying⟩
  case one_finish =>
    refine ⟨Books.matched_nodup sound, Books.finished_nodup sound, ?_⟩
    intro serial
    rw [sound.served.mem_iff, List.mem_append]
    apply or_congr_right
    rw [List.mem_map]
    constructor
    · intro waiting
      obtain ⟨op, member, same⟩ := waiting
      obtain ⟨present, kind⟩ := List.mem_filter.mp member
      exact ⟨op, present, of_decide_eq_true kind, same⟩
    · intro waiting
      obtain ⟨op, present, kind, same⟩ := waiting
      exact ⟨op, List.mem_filter.mpr ⟨present, decide_eq_true kind⟩, same⟩
  case replies => exact sound.replied
  case one_deletion =>
    refine ⟨sound.serials, sound.deletions, ?_⟩
    intro serial deleted
    exact sound.answered.mem_iff.mpr (List.mem_append_right _ deleted)
  case no_dangling =>
    refine ⟨sound.intact, ?_⟩
    intro op member
    obtain ⟨call, present, same⟩ := sound.owner member
    have serial : call.serial = op.serial := congrArg Op.serial same
    refine ⟨?_, call, Heap.get?_eq_some_iff.mpr present, serial⟩
    intro deleted
    have disjoint := (List.nodup_append.mp (Books.serials_nodup sound)).2.2
    apply disjoint op.serial _ op.serial deleted rfl
    exact List.mem_map.mpr ⟨(op.tag, call), present, serial⟩

end Server

end RpcBench.Grpc
