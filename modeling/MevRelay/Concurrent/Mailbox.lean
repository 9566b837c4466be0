import MevRelay.Concurrent.Refinement
import MevRelay.Concurrent.Schedule
import Mathlib.Data.List.Nodup
import Mathlib.Data.List.Range

/-!
# Commands answered through reply channels

Tasks ask a service through a queue.  Every command carries a reply channel of
its own; the service takes the commands one by one and answers each with a job,
which the asker carries out itself.  The channels are typed by the kind of the
command only, so that a job answers the command it was made for, and no other
of the same kind, is a matter of how the service and the queue work.
-/

namespace Concurrent

/-- What a service is asked and what it hands back for it. -/
structure Protocol where
  Kind : Type
  Body : Type
  Job : Kind → Type
  kind : Body → Kind
  respond : (body : Body) → Job (kind body)

/-- A command with the number of its reply channel. -/
structure Command (P : Protocol) where
  body : P.Body
  sender : Nat

inductive ReplyState (Job : Type) where
  | waiting
  | answered (job : Job)
  | closed
  | taken

/-- A reply channel.  The body of its command is kept, to reason about. -/
structure ReplyChannel (P : Protocol) where
  body : P.Body
  state : ReplyState (P.Job (P.kind body))

/-- The queue, the command the service is at, and all reply channels so far. -/
structure Mailbox (P : Protocol) where
  queue : List (Command P)
  held : Option (Command P)
  channels : List (ReplyChannel P)
  isOpen : Bool

inductive MailboxCall (P : Protocol) where
  /-- Open a reply channel and send a command that carries it. -/
  | send (body : P.Body)
  /-- Wait for the reply of a channel of the given kind. -/
  | receive (kind : P.Kind) (channel : Nat)
  /-- Take the next command, if there is one. -/
  | next
  | reply (command : Command P) (job : P.Job (P.kind command.body))
  /-- Give up the service with all commands that it has not taken. -/
  | close

abbrev MailboxCall.Response {P : Protocol} : MailboxCall P → Type
  | .send _ => Option Nat
  | .receive kind _ => Option (P.Job kind)
  | .next => Option (Command P)
  | .reply _ _ | .close => Unit

abbrev MailboxCalls (P : Protocol) : Signature := ⟨MailboxCall P, MailboxCall.Response⟩

variable {P : Protocol}

/-- What a reply channel gives to a task that waits for a job of some kind. -/
def ReplyChannel.Yields (channel : ReplyChannel P) (kind : P.Kind) (answer : Option (P.Job kind)) :
    Prop :=
  ∃ same : P.kind channel.body = kind,
    (∃ job, channel.state = .answered job ∧ answer = some (same ▸ job)) ∨
      channel.state = .closed ∧ answer = none

namespace Mailbox

def new : Mailbox P := ⟨[], none, [], true⟩

/-- The commands that have been sent and not answered, oldest first. -/
def pending (box : Mailbox P) : List (Command P) := box.held.toList ++ box.queue

def exec : Semantics (MailboxCalls P) (Mailbox P)
  | .send body, box, answer, after =>
      if box.isOpen then
        answer = some box.channels.length ∧ after = { box with
          queue := box.queue ++ [⟨body, box.channels.length⟩]
          channels := box.channels ++ [⟨body, .waiting⟩] }
      else answer = none ∧ after = box
  | .receive kind channel, box, answer, after =>
      ∃ found, box.channels[channel]? = some found ∧ found.Yields kind answer ∧
        after = { box with channels := box.channels.set channel ⟨found.body, .taken⟩ }
  | .next, box, answer, after =>
      box.isOpen = true ∧ box.held = none ∧ match box.queue with
        | [] => answer = none ∧ after = box
        | command :: rest => answer = some command ∧ after = { box with
            queue := rest
            held := some command }
  | .reply command job, box, _, after =>
      box.held = some command ∧ after = { box with
        held := none
        channels := box.channels.set command.sender ⟨command.body, .answered job⟩ }
  | .close, box, _, after =>
      box.isOpen = true ∧ box.held = none ∧ after = {
        queue := []
        held := none
        channels := box.channels.mapIdx fun i channel =>
          if i ∈ box.queue.map Command.sender then ⟨channel.body, .closed⟩ else channel
        isOpen := false }

/-- Sending never waits. -/
theorem send_enabled (box : Mailbox P) (body : P.Body) :
    ∃ answer after, exec (.send body) box answer after := by
  by_cases isOpen : box.isOpen = true
  · simp only [exec, if_pos isOpen]
    exact ⟨_, _, rfl, rfl⟩
  · simp only [exec, if_neg isOpen]
    exact ⟨_, _, rfl, rfl⟩

/-- The effect of a call that does not have to wait. -/
def step? [DecidableEq P.Kind] [DecidableEq P.Body] :
    (c : MailboxCall P) → Mailbox P → Option (c.Response × Mailbox P)
  | .send body, box =>
      if box.isOpen then
        some (some box.channels.length, { box with
          queue := box.queue ++ [⟨body, box.channels.length⟩]
          channels := box.channels ++ [⟨body, .waiting⟩] })
      else some (none, box)
  | .receive kind channel, box =>
      match box.channels[channel]? with
      | some ⟨body, .answered job⟩ =>
          if same : P.kind body = kind then
            some (some (same ▸ job),
              { box with channels := box.channels.set channel ⟨body, .taken⟩ })
          else none
      | some ⟨body, .closed⟩ =>
          if P.kind body = kind then
            some (none, { box with channels := box.channels.set channel ⟨body, .taken⟩ })
          else none
      | _ => none
  | .next, box =>
      match box.isOpen, box.held, box.queue with
      | true, none, [] => some (none, box)
      | true, none, command :: rest =>
          some (some command, { box with queue := rest, held := some command })
      | _, _, _ => none
  | .reply command job, box =>
      match box.held with
      | some held =>
          if held.body = command.body ∧ held.sender = command.sender then
            some ((), { box with
              held := none
              channels := box.channels.set command.sender ⟨command.body, .answered job⟩ })
          else none
      | none => none
  | .close, box =>
      match box.isOpen, box.held with
      | true, none =>
          some ((), {
            queue := []
            held := none
            channels := box.channels.mapIdx fun i channel =>
              if i ∈ box.queue.map Command.sender then ⟨channel.body, .closed⟩ else channel
            isOpen := false })
      | _, _ => none

theorem step?_sound [DecidableEq P.Kind] [DecidableEq P.Body] (c : MailboxCall P)
    (box after : Mailbox P) (answer : c.Response) (stepped : step? c box = some (answer, after)) :
    exec c box answer after := by
  cases c with
  | send body =>
      simp only [step?] at stepped
      split at stepped <;> (cases stepped; simp_all [exec])
  | receive kind channel =>
      simp only [step?] at stepped
      split at stepped
      · rename_i body job present
        split at stepped
        · rename_i same
          cases stepped
          exact ⟨_, present, ⟨same, .inl ⟨job, rfl, rfl⟩⟩, rfl⟩
        · cases stepped
      · rename_i body present
        split at stepped
        · rename_i same
          cases stepped
          exact ⟨_, present, ⟨same, .inr ⟨rfl, rfl⟩⟩, rfl⟩
        · cases stepped
      · cases stepped
  | next =>
      simp only [step?] at stepped
      split at stepped
      · rename_i isOpen held queue
        cases stepped
        exact ⟨isOpen, held, by rw [queue]; exact ⟨rfl, rfl⟩⟩
      · rename_i isOpen held queue
        cases stepped
        exact ⟨isOpen, held, by rw [queue]; exact ⟨rfl, rfl⟩⟩
      · cases stepped
  | reply command job =>
      simp only [step?] at stepped
      split at stepped
      · rename_i held present
        split at stepped
        · rename_i same
          obtain ⟨body, sender⟩ := held
          obtain ⟨asked, channel⟩ := command
          obtain ⟨rfl, rfl⟩ := same
          cases stepped
          exact ⟨present, rfl⟩
        · cases stepped
      · cases stepped
  | close =>
      simp only [step?] at stepped
      split at stepped
      · rename_i isOpen held
        cases stepped
        exact ⟨isOpen, held, rfl⟩
      · cases stepped

/-- The invariant of a mailbox whose service answers each command with the job
made for it: the channels that wait are those of the pending commands, which
are the last ones sent. -/
structure Lawful (box : Mailbox P) : Prop where
  bound : box.pending.length ≤ box.channels.length
  order : box.pending.map Command.sender =
    List.range' (box.channels.length - box.pending.length) box.pending.length
  waiting : ∀ (channel : Nat) (body : P.Body),
    box.channels[channel]? = some ⟨body, .waiting⟩ ↔ ⟨body, channel⟩ ∈ box.pending
  honest : ∀ (channel : Nat) (body : P.Body) (job : P.Job (P.kind body)),
    box.channels[channel]? = some ⟨body, .answered job⟩ → job = P.respond body
  closed : ∀ (channel : Nat) (body : P.Body),
    box.channels[channel]? = some ⟨body, .closed⟩ → box.isOpen = false
  shut : box.isOpen = false → box.pending = []

theorem new_lawful : (new : Mailbox P).Lawful where
  bound := Nat.zero_le _
  order := rfl
  waiting channel body := by simp [new, pending]
  honest channel body job found := by simp [new] at found
  closed channel body found := by simp [new] at found
  shut shut := by cases shut

namespace Lawful

variable {box after : Mailbox P}

theorem nodup (lawful : box.Lawful) : (box.pending.map Command.sender).Nodup := by
  rw [lawful.order]
  exact List.nodup_range'

theorem send (lawful : box.Lawful) (isOpen : box.isOpen = true) (body : P.Body) :
    Lawful { box with
      queue := box.queue ++ [⟨body, box.channels.length⟩]
      channels := box.channels ++ [⟨body, .waiting⟩] } := by
  have grown : pending { box with
      queue := box.queue ++ [⟨body, box.channels.length⟩]
      channels := box.channels ++ [⟨body, .waiting⟩] } =
        box.pending ++ [⟨body, box.channels.length⟩] := by
    simp [pending]
  have bound := lawful.bound
  -- a channel of the extended list is an old one or the new one
  have cases (channel : Nat) (found : ReplyChannel P) :
      (box.channels ++ [⟨body, .waiting⟩])[channel]? = some found →
      box.channels[channel]? = some found ∨
        channel = box.channels.length ∧ found = ⟨body, .waiting⟩ := by
    intro present
    rcases Nat.lt_trichotomy channel box.channels.length with inside | last | beyond
    · rw [List.getElem?_append_left inside] at present
      exact .inl present
    · rw [last, List.getElem?_concat_length] at present
      exact .inr ⟨last, (Option.some.inj present).symm⟩
    · rw [List.getElem?_eq_none (by simp; omega)] at present
      cases present
  constructor
  case bound =>
    rw [grown]
    simpa using bound
  case order =>
    rw [grown]
    have last : box.channels.length - box.pending.length + 1 * box.pending.length =
        box.channels.length := by omega
    simp only [List.map_append, lawful.order, List.length_append, List.length_singleton,
      List.map_cons, List.map_nil, Nat.add_sub_add_right, List.range'_concat, last]
  case waiting =>
    intro channel asked
    rw [grown, List.mem_append, List.mem_singleton, Command.mk.injEq]
    constructor
    · intro present
      rcases cases channel _ present with old | ⟨last, same⟩
      · exact .inl ((lawful.waiting channel asked).mp old)
      · injection same with same
        exact .inr ⟨same, last⟩
    · rintro (old | ⟨rfl, rfl⟩)
      · have present := (lawful.waiting channel asked).mpr old
        rw [List.getElem?_append_left (List.getElem?_eq_some_iff.mp present).1, present]
      · exact List.getElem?_concat_length ..
  case honest =>
    intro channel asked job present
    rcases cases channel _ present with old | ⟨_, same⟩
    · exact lawful.honest channel asked job old
    · injection same with same other
      subst same
      cases other
  case closed =>
    intro channel asked present
    rcases cases channel _ present with old | ⟨_, same⟩
    · exact lawful.closed channel asked old
    · injection same with same other
      subst same
      cases other
  case shut =>
    intro shut
    rw [isOpen] at shut
    cases shut

theorem congr (lawful : box.Lawful) (pending : after.pending = box.pending)
    (channels : after.channels = box.channels) (isOpen : after.isOpen = box.isOpen) :
    after.Lawful where
  bound := by
    rw [pending, channels]
    exact lawful.bound
  order := by
    rw [pending, channels]
    exact lawful.order
  waiting := by
    rw [pending, channels]
    exact lawful.waiting
  honest := by
    rw [channels]
    exact lawful.honest
  closed := by
    rw [channels, isOpen]
    exact lawful.closed
  shut := by
    rw [pending, isOpen]
    exact lawful.shut

/-- A reply that is there can be taken. -/
theorem receive (lawful : box.Lawful) {channel : Nat} {found : ReplyChannel P}
    (present : box.channels[channel]? = some found)
    (ready : ∀ body, found ≠ ⟨body, .waiting⟩) :
    Lawful { box with channels := box.channels.set channel ⟨found.body, .taken⟩ } := by
  have inside := (List.getElem?_eq_some_iff.mp present).1
  -- what is found in a channel that is not taken was there before
  have before (other : Nat) (content : ReplyChannel P) (kept : ∀ body, content ≠ ⟨body, .taken⟩) :
      (box.channels.set channel ⟨found.body, .taken⟩)[other]? = some content →
        other ≠ channel ∧ box.channels[other]? = some content := by
    intro stands
    by_cases same : channel = other
    · subst same
      rw [List.getElem?_set_self inside] at stands
      exact absurd (Option.some.inj stands).symm (kept found.body)
    · rw [List.getElem?_set_ne same] at stands
      exact ⟨Ne.symm same, stands⟩
  constructor
  case bound =>
    rw [List.length_set]
    exact lawful.bound
  case order =>
    rw [List.length_set]
    exact lawful.order
  case waiting =>
    intro other body
    constructor
    · intro stands
      exact (lawful.waiting other body).mp
        (before other _ (by intro taken same; injection same with same rest; subst same; cases rest) stands).2
    · intro membership
      have waits := (lawful.waiting other body).mpr membership
      rw [List.getElem?_set_ne, waits]
      rintro rfl
      rw [present] at waits
      exact ready body (Option.some.inj waits)
  case honest =>
    intro other body job stands
    exact lawful.honest other body job
      (before other _ (by intro taken same; injection same with same rest; subst same; cases rest)
        stands).2
  case closed =>
    intro other body stands
    exact lawful.closed other body
      (before other _ (by intro taken same; injection same with same rest; subst same; cases rest)
        stands).2
  case shut => exact lawful.shut

theorem reply (lawful : box.Lawful) {command : Command P} (held : box.held = some command) :
    Lawful { box with
      held := none
      channels := box.channels.set command.sender ⟨command.body, .answered (P.respond command.body)⟩ } := by
  have pending : box.pending = command :: box.queue := by simp [Mailbox.pending, held]
  have bound := lawful.bound
  have order := lawful.order
  have distinct := lawful.nodup
  rw [pending, List.length_cons] at bound
  rw [pending, List.map_cons, List.length_cons, List.range'_succ, List.cons.injEq] at order
  rw [pending, List.map_cons, List.nodup_cons] at distinct
  have present := (lawful.waiting command.sender command.body).mpr (by simp [pending])
  have inside := (List.getElem?_eq_some_iff.mp present).1
  constructor
  case bound =>
    simp only [Mailbox.pending, Option.toList_none, List.nil_append, List.length_set]
    omega
  case order =>
    simp only [Mailbox.pending, Option.toList_none, List.nil_append, List.length_set]
    rw [order.2]
    congr 1
    omega
  case waiting =>
    intro channel body
    simp only [Mailbox.pending, Option.toList_none, List.nil_append]
    by_cases same : command.sender = channel
    · subst same
      rw [List.getElem?_set_self inside]
      constructor
      · intro stands
        injection Option.some.inj stands with same rest
        subst same
        cases rest
      · intro membership
        exact absurd (List.mem_map_of_mem (f := Command.sender) membership) distinct.1
    · rw [List.getElem?_set_ne same, lawful.waiting channel body, pending, List.mem_cons]
      constructor
      · rintro (first | later)
        · exact absurd (congrArg Command.sender first).symm same
        · exact later
      · exact .inr
  case honest =>
    intro channel body job stands
    by_cases same : command.sender = channel
    · subst same
      rw [List.getElem?_set_self inside] at stands
      injection Option.some.inj stands with same rest
      subst same
      injection eq_of_heq rest with rest
      exact rest.symm
    · rw [List.getElem?_set_ne same] at stands
      exact lawful.honest channel body job stands
  case closed =>
    intro channel body stands
    by_cases same : command.sender = channel
    · subst same
      rw [List.getElem?_set_self inside] at stands
      injection Option.some.inj stands with same rest
      subst same
      cases rest
    · rw [List.getElem?_set_ne same] at stands
      exact lawful.closed channel body stands
  case shut =>
    intro shut
    have empty := lawful.shut shut
    rw [pending] at empty
    cases empty

theorem close (lawful : box.Lawful) (idle : box.held = none) : Lawful {
      queue := []
      held := none
      channels := box.channels.mapIdx fun i channel =>
        if i ∈ box.queue.map Command.sender then ⟨channel.body, .closed⟩ else channel
      isOpen := false } := by
  -- a channel that is not closed was so before, and none of a command in the queue
  have before (channel : Nat) (content : ReplyChannel P) (kept : ∀ body, content ≠ ⟨body, .closed⟩)
      (stands : (box.channels.mapIdx fun i channel =>
        if i ∈ box.queue.map Command.sender then ⟨channel.body, .closed⟩ else channel)[channel]? =
          some content) :
      channel ∉ box.queue.map Command.sender ∧ box.channels[channel]? = some content := by
    rw [List.getElem?_mapIdx, Option.map_eq_some_iff] at stands
    obtain ⟨old, present, same⟩ := stands
    split at same
    · exact absurd same.symm (kept old.body)
    · rename_i outside
      rw [← same]
      exact ⟨outside, present⟩
  constructor
  case bound => exact Nat.zero_le _
  case order => rfl
  case waiting =>
    intro channel body
    constructor
    · intro stands
      obtain ⟨outside, present⟩ := before channel _
        (by intro closed same; injection same with same rest; subst same; cases rest) stands
      have membership := (lawful.waiting channel body).mp present
      rw [pending, idle] at membership
      exact absurd (List.mem_map_of_mem (f := Command.sender) membership) outside
    · intro membership
      cases membership
  case honest =>
    intro channel body job stands
    exact lawful.honest channel body job (before channel _
      (by intro closed same; injection same with same rest; subst same; cases rest) stands).2
  case closed => intros; rfl
  case shut => intros; rfl

/-- Every call keeps the invariant, if replies are the jobs made for their commands. -/
theorem step (lawful : box.Lawful) {c : MailboxCall P} {answer : c.Response}
    (executed : exec c box answer after)
    (honest : ∀ command job, c = .reply command job → job = P.respond command.body) :
    after.Lawful := by
  cases c with
  | send body =>
      simp only [exec] at executed
      split at executed
      · obtain ⟨_, rfl⟩ := executed
        exact lawful.send (by assumption) body
      · rw [executed.2]
        exact lawful
  | receive kind channel =>
      obtain ⟨found, present, ⟨_, ready⟩, rfl⟩ := executed
      refine lawful.receive present fun body waits => ?_
      subst waits
      rcases ready with ⟨job, answered, _⟩ | ⟨closed, _⟩
      · cases answered
      · cases closed
  | next =>
      obtain ⟨_, idle, rest⟩ := executed
      split at rest
      · rw [rest.2]
        exact lawful
      · rename_i command later queue
        obtain ⟨_, rfl⟩ := rest
        exact lawful.congr (by simp [pending, idle, queue]) rfl rfl
  | reply command job =>
      obtain ⟨held, rfl⟩ := executed
      rw [honest command job rfl]
      exact lawful.reply held
  | close =>
      obtain ⟨_, idle, rfl⟩ := executed
      exact lawful.close idle

end Lawful

def bodies (box : Mailbox P) : List P.Body := box.channels.map ReplyChannel.body

/-- All commands sent so far, oldest first. -/
def commands (box : Mailbox P) : List (Command P) :=
  box.bodies.zipIdx.map fun sent => ⟨sent.1, sent.2⟩

/-- The command that a call sends. -/
def sent? : Record (MailboxCalls P) → Option (Command P)
  | ⟨.send body, some channel⟩ => some ⟨body, channel⟩
  | _ => none

/-- The command that a call answers. -/
def replied? : Record (MailboxCalls P) → Option (Command P)
  | ⟨.reply command _, _⟩ => some command
  | _ => none

theorem bodies_set {box : Mailbox P} {channel : Nat} {found : ReplyChannel P}
    (present : box.channels[channel]? = some found) (state : ReplyState (P.Job (P.kind found.body))) :
    (box.channels.set channel ⟨found.body, state⟩).map ReplyChannel.body = box.bodies := by
  have same : box.bodies[channel]? = some found.body := by simp [bodies, present]
  obtain ⟨inside, value⟩ := List.getElem?_eq_some_iff.mp same
  rw [List.map_set]
  conv_lhs => rw [← value]
  exact List.set_getElem_self ..

/-- A command that is sent gets the next channel, and no other call changes what was asked. -/
theorem commands_step {box after : Mailbox P} (lawful : box.Lawful) {c : MailboxCall P}
    {answer : c.Response} (executed : exec c box answer after) :
    after.commands = box.commands ++ (sent? ⟨c, answer⟩).toList := by
  have of_bodies (same : after.bodies = box.bodies) : after.commands = box.commands := by
    rw [commands, same, commands]
  cases c with
  | send body =>
      simp only [exec] at executed
      split at executed
      · obtain ⟨rfl, rfl⟩ := executed
        simp [commands, bodies, sent?, List.zipIdx_append]
      · obtain ⟨rfl, rfl⟩ := executed
        simp [sent?]
  | receive kind channel =>
      obtain ⟨found, present, _, rfl⟩ := executed
      rw [of_bodies (bodies_set present .taken)]
      simp [sent?]
  | next =>
      obtain ⟨_, _, rest⟩ := executed
      split at rest <;> (obtain ⟨_, rfl⟩ := rest; rw [of_bodies rfl]; simp [sent?])
  | reply command job =>
      obtain ⟨held, rfl⟩ := executed
      have present := (lawful.waiting command.sender command.body).mpr (by simp [pending, held])
      rw [of_bodies (bodies_set present (.answered job))]
      simp [sent?]
  | close =>
      obtain ⟨_, _, rfl⟩ := executed
      rw [of_bodies]
      · simp [sent?]
      · refine List.ext_getElem? fun i => ?_
        rw [bodies, bodies, List.getElem?_map, List.getElem?_mapIdx, List.getElem?_map]
        cases box.channels[i]? with
        | none => rfl
        | some channel =>
            by_cases inside : i ∈ box.queue.map Command.sender <;> simp [inside]

theorem mem_commands {box : Mailbox P} {command : Command P} :
    command ∈ box.commands ↔ box.channels[command.sender]?.map ReplyChannel.body = some command.body := by
  rw [commands, List.mem_map, ← List.getElem?_map, ← bodies]
  constructor
  · rintro ⟨⟨body, channel⟩, membership, rfl⟩
    exact List.mem_zipIdx_iff_getElem?.mp membership
  · intro found
    exact ⟨(command.body, command.sender), List.mem_zipIdx_iff_getElem?.mpr found, rfl⟩

/-- What the calls made on a mailbox say about it: commands got the channels
0, 1, 2, … and were answered in this order, each once; as long as the service
is there, all others are pending. -/
structure Served (history : List (Record (MailboxCalls P))) (box : Mailbox P) : Prop where
  lawful : box.Lawful
  sends : history.filterMap sent? = box.commands
  replies : ∃ rest, history.filterMap replied? ++ rest = history.filterMap sent? ∧
    (box.isOpen = true → rest = box.pending)
  taken : ∀ (channel : Nat) (body : P.Body), box.channels[channel]? = some ⟨body, .taken⟩ →
    ∃ kind answer, ⟨.receive kind channel, answer⟩ ∈ history

namespace Served

variable {history : List (Record (MailboxCalls P))} {box after : Mailbox P}

theorem new : Served [] (Mailbox.new : Mailbox P) where
  lawful := new_lawful
  sends := rfl
  replies := ⟨[], rfl, fun _ => rfl⟩
  taken channel body present := by simp [Mailbox.new] at present

theorem replies_step (served : Served history box) {c : MailboxCall P} {answer : c.Response}
    (executed : exec c box answer after) :
    ∃ rest, (history ++ [(⟨c, answer⟩ : Record (MailboxCalls P))]).filterMap replied? ++ rest =
        (history ++ [(⟨c, answer⟩ : Record (MailboxCalls P))]).filterMap sent? ∧
      (after.isOpen = true → rest = after.pending) := by
  obtain ⟨rest, balance, level⟩ := served.replies
  rw [List.filterMap_append, List.filterMap_append, ← balance]
  cases c with
  | send body =>
      simp only [exec] at executed
      split at executed
      · rename_i isOpen
        obtain ⟨rfl, rfl⟩ := executed
        refine ⟨rest ++ [⟨body, box.channels.length⟩], by simp [replied?, sent?, List.filterMap_cons], fun _ => ?_⟩
        rw [level isOpen]
        simp [pending]
      · obtain ⟨rfl, rfl⟩ := executed
        exact ⟨rest, by simp [replied?, sent?, List.filterMap_cons], level⟩
  | receive kind channel =>
      obtain ⟨found, _, _, rfl⟩ := executed
      exact ⟨rest, by simp [replied?, sent?, List.filterMap_cons], level⟩
  | next =>
      obtain ⟨_, idle, taken⟩ := executed
      split at taken
      · obtain ⟨_, rfl⟩ := taken
        exact ⟨rest, by simp [replied?, sent?, List.filterMap_cons], level⟩
      · rename_i command later queue
        obtain ⟨_, rfl⟩ := taken
        refine ⟨rest, by simp [replied?, sent?, List.filterMap_cons], fun isOpen => ?_⟩
        rw [level isOpen]
        simp [pending, idle, queue]
  | reply command job =>
      obtain ⟨held, rfl⟩ := executed
      have first : box.pending = command :: box.queue := by simp [pending, held]
      have isOpen : box.isOpen = true := by
        by_contra shut
        have empty := served.lawful.shut (by simpa using shut)
        rw [first] at empty
        cases empty
      rw [level isOpen, first]
      exact ⟨box.queue, by simp [replied?, sent?, List.filterMap_cons], fun _ => rfl⟩
  | close =>
      obtain ⟨_, _, rfl⟩ := executed
      exact ⟨rest, by simp [replied?, sent?, List.filterMap_cons], fun isOpen => by cases isOpen⟩

/-- A reply is taken by receiving it. -/
theorem taken_step {c : MailboxCall P} {answer : c.Response} (executed : exec c box answer after)
    {channel : Nat} {body : P.Body} (present : after.channels[channel]? = some ⟨body, .taken⟩) :
    (∃ kind response, (⟨c, answer⟩ : Record (MailboxCalls P)) = ⟨.receive kind channel, response⟩) ∨
      box.channels[channel]? = some ⟨body, .taken⟩ := by
  cases c with
  | send asked =>
      right
      simp only [exec] at executed
      split at executed
      · obtain ⟨_, rfl⟩ := executed
        by_cases last : channel = box.channels.length
        · subst last
          rw [List.getElem?_concat_length] at present
          injection Option.some.inj present with same rest
          subst same
          cases rest
        · have bound := (List.getElem?_eq_some_iff.mp present).1
          simp only [List.length_append, List.length_singleton] at bound
          rwa [List.getElem?_append_left (by omega)] at present
      · rwa [executed.2] at present
  | receive kind asked =>
      obtain ⟨found, _, _, rfl⟩ := executed
      by_cases same : asked = channel
      · subst same
        exact .inl ⟨kind, answer, rfl⟩
      · right
        rwa [List.getElem?_set_ne same] at present
  | next =>
      obtain ⟨_, _, rest⟩ := executed
      split at rest <;> (obtain ⟨_, rfl⟩ := rest; exact .inr present)
  | reply command job =>
      obtain ⟨_, rfl⟩ := executed
      by_cases same : command.sender = channel
      · subst same
        rw [List.getElem?_set, if_pos rfl] at present
        split at present
        · injection Option.some.inj present with same rest
          subst same
          cases rest
        · cases present
      · right
        rwa [List.getElem?_set_ne same] at present
  | close =>
      obtain ⟨_, _, rfl⟩ := executed
      right
      rw [List.getElem?_mapIdx, Option.map_eq_some_iff] at present
      obtain ⟨old, before, same⟩ := present
      split at same
      · injection same with same rest
        subst same
        cases rest
      · rw [before, same]

theorem step (served : Served history box) {c : MailboxCall P} {answer : c.Response}
    (executed : exec c box answer after)
    (honest : ∀ command job, c = .reply command job → job = P.respond command.body) :
    Served (history ++ [⟨c, answer⟩]) after where
  lawful := served.lawful.step executed honest
  sends := by
    rw [commands_step served.lawful executed, List.filterMap_append, served.sends]
    cases found : sent? ⟨c, answer⟩ <;> simp [found]
  replies := served.replies_step executed
  taken channel body present := by
    rcases taken_step executed present with ⟨kind, response, same⟩ | before
    · exact ⟨kind, response, List.mem_append_right _ (by rw [same]; exact List.mem_singleton_self _)⟩
    · obtain ⟨kind, response, membership⟩ := served.taken channel body before
      exact ⟨kind, response, List.mem_append_left _ membership⟩

/-- What the sender of a command receives is the job made for it, and nothing
only once the service is gone. -/
theorem received (served : Served history box) {body : P.Body} {channel : Nat}
    (sent : ⟨.send body, some channel⟩ ∈ history) {answer : Option (P.Job (P.kind body))}
    (executed : exec (.receive (P.kind body) channel) box answer after) :
    answer = some (P.respond body) ∨ answer = none ∧ box.isOpen = false := by
  have asked : ⟨body, channel⟩ ∈ box.commands := by
    rw [← served.sends, List.mem_filterMap]
    exact ⟨_, sent, rfl⟩
  obtain ⟨⟨asking, state⟩, present, ⟨same, ready⟩, _⟩ := executed
  rw [mem_commands, present] at asked
  cases asked
  rcases ready with ⟨job, answered, result⟩ | ⟨closed, none⟩
  · have content : state = .answered job := answered
    rw [content] at present
    rw [result, served.lawful.honest channel _ job present]
    exact .inl rfl
  · have content : state = .closed := closed
    rw [content] at present
    exact .inr ⟨none, served.lawful.closed channel _ present⟩

/-- A reply channel that no longer waits gives its sender an answer, once. -/
theorem receive_enabled (served : Served history box) {body : P.Body} {channel : Nat}
    (sent : ⟨.send body, some channel⟩ ∈ history)
    (ready : ∀ body, box.channels[channel]? ≠ some ⟨body, .waiting⟩)
    (untaken : ∀ kind answer, ⟨.receive kind channel, answer⟩ ∉ history) :
    ∃ answer after, exec (.receive (P.kind body) channel) box answer after := by
  have asked : ⟨body, channel⟩ ∈ box.commands := by
    rw [← served.sends, List.mem_filterMap]
    exact ⟨_, sent, rfl⟩
  rw [mem_commands, Option.map_eq_some_iff] at asked
  obtain ⟨⟨asking, state⟩, present, same⟩ := asked
  cases same
  cases state with
  | waiting => exact absurd present (ready _)
  | answered job => exact ⟨some job, _, _, present, ⟨rfl, .inl ⟨job, rfl, rfl⟩⟩, rfl⟩
  | closed => exact ⟨none, _, _, present, ⟨rfl, .inr ⟨rfl, rfl⟩⟩, rfl⟩
  | taken =>
      obtain ⟨kind, answer, membership⟩ := served.taken channel _ present
      exact absurd membership (untaken kind answer)

/-- No two commands share a reply channel. -/
theorem sends_differ (served : Served history box) :
    (history.filterMap sent?).Pairwise fun first second => first.sender ≠ second.sender := by
  rw [served.sends, commands, List.pairwise_map, ← List.pairwise_map (f := Prod.snd)
    (R := fun first second : Nat => first ≠ second), List.zipIdx_map_snd]
  exact List.nodup_range'

/-- When the service finds no further command, no channel waits. -/
theorem none_waits (served : Served history box) (executed : exec .next box none after)
    (channel : Nat) (body : P.Body) : box.channels[channel]? ≠ some ⟨body, .waiting⟩ := by
  intro present
  have membership := (served.lawful.waiting channel body).mp present
  obtain ⟨_, idle, rest⟩ := executed
  split at rest
  · rename_i queue
    simp [pending, idle, queue] at membership
  · cases rest.1

end Served

end Mailbox

namespace Component

variable {sig : Signature} {Request Result Store : Type} {exec : Semantics sig Store}
  (part : Component exec (Mailbox.exec (P := P)))

/-- The calls on the mailbox in a trace. -/
def history (trace : List (Event sig Request Store)) : List (Record (MailboxCalls P)) :=
  trace.filterMap fun event => part.record? event.record

/-- Replies are the jobs made for their commands. -/
def honest : Outline sig Result where
  atCall _ c := ∀ answer command job,
    (part.record? ⟨c, answer⟩).map Sigma.fst = some (.reply command job) →
      job = P.respond command.body
  atResult _ _ := True

/-- In every interleaving the mailbox serves its commands. -/
theorem served {handler : Request → Program sig Result} {init : Store}
    {trace : List (Event sig Request Store)} {world : World sig Request Result Store}
    (run : Run handler exec init trace world) (empty : part.state init = Mailbox.new)
    (kept : ∀ request, part.honest.Holds [] (handler request)) :
    Mailbox.Served (part.history trace) (part.state world.store) := by
  refine run.invariant (fun trace store =>
    Mailbox.Served (part.history trace) (part.state store)) ?_ ?_
  · rw [empty]
    exact .new
  · rintro front event ⟨middle, reached⟩ executed served
    have honest := reached.outline_atLast kept event.response
    cases found : part.record? event.record with
    | none =>
        have same : part.history (front ++ [event]) = part.history front := by
          simp [history, found]
        rw [same, part.rests _ _ _ _ executed found]
        exact served
    | some own =>
        have grown : part.history (front ++ [event]) = part.history front ++ [own] := by
          simp [history, found]
        rw [grown]
        refine served.step (part.acts _ _ _ _ own executed found) fun command job same => ?_
        exact honest command job (by rw [← same]; exact congrArg (Option.map Sigma.fst) found)

end Component

end Concurrent
