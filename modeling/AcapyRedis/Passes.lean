import AcapyRedis.Pending

/-!
What a pass of an instance does. It pops the lists of the keys of its copy of the key list, one
after the other. For a record that it has popped it first notes its access, then reads the counter
of its uid and the key, and writes a count of at least 1 lowered by one (`Pass.may`); then it
hands the payload on and goes to the next key.
-/
namespace AcapyRedis.Passes
open AcapyRedis.Programs AcapyRedis.Programs.Program AcapyRedis.Python AcapyRedis.RedisStore AcapyRedis.Utils
open AcapyRedis.Threads AcapyRedis.Commands AcapyRedis.Inbound AcapyRedis.Pending

/-- What a pass has yet to do with the counter of the message that it popped last. -/
inductive Due
  | nothing
  | access
  | read
  | lower (count : Int)
  deriving DecidableEq

namespace Due

/-- A pass counts off a record; nothing is due when the list was empty or the entry invalid. -/
def of_popped : Option Entry → Due
  | some (.inbound _ _) => .access
  | _ => .nothing

/-- A count of at least 1 is lowered. -/
def of_count (count : Int) : Due := if 1 ≤ count then .lower count else .nothing

end Due

/-- A pass of an instance: its uid, the list that it popped last, the keys of its copy of
    the key list that it has yet to reach, and what it has yet to do with the counter. -/
structure Pass where
  uid : Uid
  popped : Option String
  ahead : List RecipKey
  due : Due

namespace Pass

/-- The counter of the uid and the key that was popped last. -/
def Counter (topic : String) (pass : Pass) (field : String) : Prop :=
  ∃ k, pass.popped = some (topic_list topic k) ∧ field = uid_recip_key pass.uid k

/-- Only a pass pops: the list of the next key of its copy, once nothing is due. It reads
    and writes no other counter than that of the message that it popped last. -/
def may (topic : String) (pass : Pass) (c : Command) : Prop :=
  match pass.due, c with
  | .nothing, .blpop list => ∃ k, pass.ahead.head? = some k ∧ list = topic_list topic k
  | .nothing, .rpush _ _ => True
  | .access, .hset_last_access u _ => u = pass.uid
  | .read, .hget_pending field => pass.Counter topic field
  | .lower count, .hset_pending field value => pass.Counter topic field ∧ value = count - 1
  | _, _ => False

def next (pass : Pass) : Event Command Command.Reply → Pass
  | ⟨.blpop list, reply⟩ => ⟨pass.uid, some list, pass.ahead.tail, Due.of_popped reply⟩
  | ⟨.hset_last_access _ _, _⟩ => { pass with due := .read }
  | ⟨.hget_pending _, reply⟩ => { pass with due := Due.of_count (reply.getD 0) }
  | ⟨.hset_pending _ _, _⟩ => { pass with due := .nothing }
  | _ => pass

theorem counter_unique {topic : String} {pass : Pass} {field other : String} (counter : pass.Counter topic field)
    (same : pass.Counter topic other) : other = field := by
  obtain ⟨k,popped,rfl⟩ := counter
  obtain ⟨l,again,rfl⟩ := same
  rw [popped,Option.some.injEq,topic_list_inj] at again
  rw [again]

end Pass

/-- What a thread is, by its first command. -/
inductive Role
  | fresh
  | passing (pass : Pass)
  | other

namespace Role

def next : Role → Event Command Command.Reply → Role
  | .fresh, ⟨.hget_recip_keys u, reply⟩ => .passing ⟨u, none, reply.getD [], .nothing⟩
  | .fresh, _ => .other
  | .passing pass, event => .passing (pass.next event)
  | .other, _ => .other

def may (topic : String) : Role → Command → Prop
  | .passing pass, c => pass.may topic c
  | _, .blpop _ => False
  | _, _ => True

/-- No pass, or one with nothing due. -/
def rests : Role → Prop
  | .passing pass => pass.due = .nothing
  | _ => True

end Role

def runner (topic : String) : Discipline Command Command.Reply Role :=
  ⟨.fresh, Role.next, Role.may topic, fun _ _ => True⟩

/-- What a thread is after the events of its log. -/
def role (log : List (Event Command Command.Reply)) : Role := log.foldl Role.next .fresh

@[simp] theorem ghost_role (topic : String) (log : List (Event Command Command.Reply)) :
    (runner topic).ghost log = role log := rfl

@[simp] theorem role_nil : role [] = .fresh := rfl

@[simp] theorem role_snoc (log : List (Event Command Command.Reply)) (event : Event Command Command.Reply) :
    role (log ++ [event]) = (role log).next event := by simp [role]

/-- A pass was a pass before its last command, or it has begun with this command, which read the
    key list. -/
theorem role_passing {log : List (Event Command Command.Reply)} {event : Event Command Command.Reply} {pass : Pass}
    (here : role (log ++ [event]) = .passing pass) :
    (∃ u reply, role log = .fresh ∧ event = ⟨.hget_recip_keys u, reply⟩ ∧
      pass = ⟨u, none, reply.getD [], .nothing⟩) ∨
    ∃ old, role log = .passing old ∧ pass = old.next event := by
  rw [role_snoc] at here
  obtain ⟨c,reply⟩ := event
  cases before : role log with
  | fresh =>
    rw [before] at here
    cases c with
    | hget_recip_keys u => exact .inl ⟨u,reply,rfl,rfl,(Role.passing.inj here).symm⟩
    | _ => cases here
  | passing old =>
    rw [before] at here
    exact .inr ⟨old,rfl,(Role.passing.inj here).symm⟩
  | other =>
    rw [before] at here
    cases here

/-- A thread is what it is from its first command on. -/
theorem role_begun (log : List (Event Command Command.Reply)) (event : Event Command Command.Reply) :
    role (log ++ [event]) ≠ .fresh := by
  rw [role_snoc]
  obtain ⟨c,reply⟩ := event
  cases role log with
  | fresh => cases c <;> exact Role.noConfusion
  | passing pass => exact Role.noConfusion
  | other => exact Role.noConfusion

/-- A thread that has read the key list of a uid first is a pass of the uid. -/
theorem role_started (u : Uid) (reply : Option (List RecipKey)) (log : List (Event Command Command.Reply)) :
    ∃ pass : Pass, role (⟨.hget_recip_keys u, reply⟩ :: log) = .passing pass ∧ pass.uid = u := by
  have stays : ∀ (events : List (Event Command Command.Reply)) (pass : Pass), pass.uid = u →
      ∃ last : Pass, events.foldl Role.next (.passing pass) = .passing last ∧ last.uid = u := by
    intro events
    induction events with
    | nil => exact fun pass same => ⟨pass, rfl, same⟩
    | cons event rest ih =>
      intro pass same
      refine ih (pass.next event) ?_
      obtain ⟨c,reply⟩ := event
      cases c <;> exact same
  exact stays log ⟨u, none, reply.getD [], .nothing⟩ rfl

/-! ### Threads that are no passes -/

section
variable {topic : String}

/-- The commands of a producer, which pops nothing. -/
def PopsNothing : Command → Prop
  | .blpop _ => False
  | _ => True

theorem other_follows {α : Type} {p : Redis α} (issued : Discipline.Issues PopsNothing p) :
    (runner topic).Follows (fun _ g => g = .other) p .other := by
  refine issued.keeps (fun g c same pops => ?_) rfl
  subst same
  cases c <;> first | exact pops.elim | exact ⟨trivial, fun _ => rfl⟩

theorem produce_issues (topic : String) (json_loads : Bytes ⊕ Text → Except PyError Json) (patience : Nat) (now : Int)
    (payload : Bytes) :
    Discipline.Issues PopsNothing (produce json_loads patience now payload topic) := by
  refine Discipline.issues_bind ?_ (fun _ => Discipline.issues_call trivial)
  refine (process_payload_issues json_loads patience now payload topic).mono (fun c inCall => ?_)
  cases c <;> first | exact inCall.elim | trivial

/-- The first command of a producer is not that of a pass. -/
theorem produce_runs (json_loads : Bytes ⊕ Text → Except PyError Json) (patience : Nat) (now : Int) (payload : Bytes) :
    (runner topic).Follows (fun _ g => g.rests) (produce json_loads patience now payload topic) .fresh := by
  have issued := produce_issues topic json_loads patience now payload
  rw [produce,process_payload_recip_key] at issued ⊢
  cases key : recip_key_of json_loads payload with
  | error error => trivial
  | ok k =>
    rw [key] at issued
    refine ⟨trivial, fun present _ => ?_⟩
    refine Discipline.follows_mono (other_follows (issued.2 present trivial)) (fun _ g same => ?_)
    subst same
    trivial

/-! ### Passes -/

/-- A pass of `uid` that has yet to reach the keys `ahead`, with nothing due. -/
def passes (uid : Uid) (ahead : List RecipKey) (g : Role) : Prop := ∃ popped,
    g = .passing ⟨uid, popped, ahead, .nothing⟩

theorem receive_runs (self : RedisInboundTransport) (payload : Bytes) (txn_id : Option Text) {pass : Pass}
    (rests : pass.due = .nothing) :
    (runner topic).Follows (fun _ g => g = .passing pass) (self.receive payload txn_id) (.passing pass) := by
  obtain ⟨uid,popped,ahead,due⟩ := pass
  subst rests
  refine RedisInboundTransport.receive_cases ?_ ?_ ?_ payload txn_id
  · rfl
  · exact fun _ => rfl
  · exact fun _ => ⟨trivial, fun _ _ => rfl⟩

/-- A record that was popped is counted off before its payload is handed on. -/
theorem counts_off_runs (self : RedisInboundTransport) (k : RecipKey) (payload : Bytes) (txn_id : Option Text)
    (ahead : List RecipKey) :
    (runner topic).Follows (fun _ g => passes self.plugin_uid ahead g)
      (do
        redis (.hset_last_access self.plugin_uid (self.clock k))
        match ← redis (.hget_pending (uid_recip_key self.plugin_uid k)) with
        | some count =>
          if 1 ≤ count then
            redis (.hset_pending (uid_recip_key self.plugin_uid k) (count - 1))
          self.receive payload txn_id
        | none => self.receive payload txn_id : Redis Unit)
      (.passing ⟨self.plugin_uid, some (topic_list topic k), ahead, .access⟩) := by
  have received : (runner topic).Follows (fun _ g => passes self.plugin_uid ahead g) (self.receive payload txn_id)
      (.passing ⟨self.plugin_uid, some (topic_list topic k), ahead, .nothing⟩) :=
    Discipline.follows_mono (receive_runs self payload txn_id rfl) (fun _ _ same => ⟨some (topic_list topic k), same⟩)
  refine ⟨rfl, fun _ _ => ⟨⟨k,rfl,rfl⟩, fun count _ => ?_⟩⟩
  cases count with
  | none => exact received
  | some count =>
    show (runner topic).Follows _ (if 1 ≤ count then _ else _)
      (.passing ⟨self.plugin_uid, some (topic_list topic k), ahead, Due.of_count count⟩)
    by_cases least : 1 ≤ count
    · rw [if_pos least,Due.of_count,if_pos least]
      exact ⟨⟨⟨k,rfl,rfl⟩,rfl⟩, fun _ _ => received⟩
    · rw [if_neg least,Due.of_count,if_neg least]
      exact received

theorem poll_key_runs (self : RedisInboundTransport) (under : self.inbound_topic = topic) (k : RecipKey)
    (rest : List RecipKey) {g : Role} (here : passes self.plugin_uid (k :: rest) g) :
    (runner topic).Follows (fun _ g' => passes self.plugin_uid rest g') (self.poll_key k) g := by
  obtain ⟨before,rfl⟩ := here
  rw [RedisInboundTransport.poll_key,under,pop_message]
  refine ⟨⟨k,rfl,rfl⟩, fun msg _ => ?_⟩
  have popped : passes self.plugin_uid rest (.passing ⟨self.plugin_uid, some (topic_list topic k), rest, .nothing⟩) :=
    ⟨some (topic_list topic k), rfl⟩
  rcases msg with _ | ⟨payload,txn_id⟩ | ⟨_,_,_⟩ | error
  · exact popped
  · exact counts_off_runs self k payload txn_id rest
  · exact popped
  · cases error <;> exact popped

theorem poll_keys_runs (self : RedisInboundTransport) (under : self.inbound_topic = topic) (ks : List RecipKey) :
    ∀ g, passes self.plugin_uid ks g → (runner topic).Follows (fun _ g' => g'.rests) (self.poll_keys ks) g := by
  induction ks with
  | nil =>
    rintro g ⟨popped,rfl⟩
    rfl
  | cons k rest ih =>
    intro g here
    rw [RedisInboundTransport.poll_keys,Discipline.follows_bind]
    refine Discipline.follows_mono (poll_key_runs self under k rest here) (fun outcome g' reached => ?_)
    cases outcome with
    | ok _ => exact ih g' reached
    | error error =>
      obtain ⟨popped,rfl⟩ := reached
      rfl

theorem poll_runs (self : RedisInboundTransport) (under : self.inbound_topic = topic) :
    (runner topic).Follows (fun _ g => g.rests) self.poll .fresh := by
  refine ⟨trivial, fun listed _ => ?_⟩
  cases listed with
  | none => rfl
  | some ks => exact poll_keys_runs self under ks _ ⟨none, rfl⟩

theorem actor_runs {json_loads : Bytes ⊕ Text → Except PyError Json} {p : Redis Unit}
    (actor : IsActor json_loads topic p) : (runner topic).Follows (fun _ g => g.rests) p .fresh := by
  cases actor with
  | produces patience now payload => exact produce_runs json_loads patience now payload
  | polls self under => exact poll_runs self under
  | registers uid => exact ⟨trivial, fun _ _ => ⟨trivial, fun _ _ => trivial⟩⟩

end

/-! ### A pass never waits -/

theorem pop_message_awake (list : String) (tries : Nat) : (pop_message list tries).Awake := by
  induction tries with
  | zero => trivial
  | succ tries ih =>
    intro reply
    cases reply with
    | ok msg => trivial
    | error error => cases error <;> first | exact ih | trivial

theorem redis_awake (c : Command) : (redis c).Awake := by
  intro reply
  cases reply <;> trivial

theorem receive_awake (self : RedisInboundTransport) (payload : Bytes) (txn_id : Option Text) :
    (self.receive payload txn_id).Awake := by
  refine RedisInboundTransport.receive_cases ?_ ?_ ?_ payload txn_id
  · trivial
  · exact fun _ => trivial
  · intro message reply
    cases reply with
    | ok _ => trivial
    | error error => cases error <;> trivial

theorem poll_key_awake (self : RedisInboundTransport) (k : RecipKey) : (self.poll_key k).Awake := by
  refine awake_bind (pop_message_awake _ 6) (fun msg => ?_)
  rcases msg with _ | ⟨payload,txn_id⟩ | ⟨_,_,_⟩ | error
  · trivial
  · refine awake_bind (redis_awake _) (fun _ => awake_bind (redis_awake _) (fun count => ?_))
    cases count with
    | none => exact receive_awake self payload txn_id
    | some count =>
      show Awake (if 1 ≤ count then _ else _)
      split
      · exact awake_bind (redis_awake _) (fun _ => receive_awake self payload txn_id)
      · exact receive_awake self payload txn_id
  · trivial
  · cases error <;> trivial

theorem poll_keys_awake (self : RedisInboundTransport) (ks : List RecipKey) : (self.poll_keys ks).Awake := by
  induction ks with
  | nil => trivial
  | cons k rest ih => exact awake_bind (poll_key_awake self k) (fun _ => ih)

theorem poll_awake (self : RedisInboundTransport) : self.poll.Awake := by
  intro reply
  cases reply with
  | ok listed =>
    cases listed with
    | none => trivial
    | some ks => exact poll_keys_awake self ks
  | error error => cases error <;> trivial

/-- A program that begins as a pass does never waits. -/
theorem pass_awake {json_loads : Bytes ⊕ Text → Except PyError Json} {topic : String} {p : Redis Unit}
    (actor : IsActor json_loads topic p) {u : Uid} {next : Except PyError (Option (List RecipKey)) → Redis Unit}
    (begins : p = .command (.hget_recip_keys u) next) : p.Awake := by
  cases actor with
  | produces patience now payload =>
    rw [produce,process_payload_recip_key] at begins
    cases key : recip_key_of json_loads payload with
    | error error =>
      rw [key] at begins
      cases begins
    | ok k =>
      rw [key] at begins
      cases begins
  | polls self _ => exact poll_awake self
  | registers uid => cases begins

end AcapyRedis.Passes
