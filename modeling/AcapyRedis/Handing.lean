import AcapyRedis.Correlation
import AcapyRedis.Sums

/-!
A request is handed to one session at most, and one response to it at most comes back. A request
is waiting with its push loop, in the list of its key or with the passes that popped it
(`Once.requests`), and each response goes back to such a pass (`Once.responses`).
-/
namespace AcapyRedis.Handing
open AcapyRedis.Programs AcapyRedis.Programs.Program AcapyRedis.Python AcapyRedis.RedisStore AcapyRedis.Utils
open AcapyRedis.Inbound AcapyRedis.Threads AcapyRedis.Threads.Discipline AcapyRedis.Records AcapyRedis.Sums
open AcapyRedis.JsonText AcapyRedis.Handlers AcapyRedis.Responses AcapyRedis.Deployments AcapyRedis.Correlation
open AcapyRedis.Replies (direct_response_made)

/-! ### What is counted -/

/-- A request with the transaction. -/
def requests (txn_id : Text) : Entry → Bool
  | .inbound _ (some txn) => decide (txn = txn_id)
  | _ => false

/-- A response with the transaction. -/
def responds (txn_id : Text) : Entry → Bool
  | .direct_response txn _ _ => decide (txn = txn_id)
  | _ => false

/-- A relay pops a response with the transaction. -/
def popped (txn_id : Text) : Relays.Event → Bool
  | .popped _ txn _ => decide (txn = txn_id)
  | _ => false

/-- A pass pops a request with the transaction. -/
def hands (txn_id : Text) : Event Command Command.Reply → Bool
  | ⟨.blpop _, some entry⟩ => requests txn_id entry
  | _ => false

/-- Whether the program still has to push a request with the transaction. -/
def unsent (txn_id : Text) (actor : Actor) : Int :=
  match actor.role with
  | .asks _ _ txn _ => one (decide (txn = txn_id) && !(held actor.thread.log).sent)
  | _ => 0

/-- How often the program has popped a request with the transaction. -/
def handed (txn_id : Text) (actor : Actor) : Int := (actor.thread.log.countP (hands txn_id) : Nat)

/-- Whether the program may answer a request with the transaction. -/
def owes (txn_id : Text) (g : Held) : Int :=
  match g.request with
  | some (_, txn) => one (decide (txn = txn_id))
  | none => 0

def holds (txn_id : Text) (actor : Actor) : Int := owes txn_id (held actor.thread.log)

def total (measure : Actor → Int) (actors : List Actor) : Int := (actors.map measure).sum

theorem owes_nonneg (txn_id : Text) (g : Held) : 0 ≤ owes txn_id g := by
  rw [owes]
  split
  · exact one_nonneg _
  · exact Int.le_refl 0

theorem unsent_nonneg (txn_id : Text) (actor : Actor) : 0 ≤ unsent txn_id actor := by
  rw [unsent]
  split
  · exact one_nonneg _
  · exact Int.le_refl 0

theorem handed_nonneg (txn_id : Text) (actor : Actor) : 0 ≤ handed txn_id actor := Int.natCast_nonneg _

theorem total_nonneg {measure : Actor → Int} (nonneg : ∀ actor, 0 ≤ measure actor) (actors : List Actor) :
    0 ≤ total measure actors := sum_map_nonneg measure (fun actor _ => nonneg actor)

theorem total_append (measure : Actor → Int) (actors : List Actor) (actor : Actor) :
    total measure (actors ++ [actor]) = total measure actors + measure actor := by
  simp [total]

theorem handed_snoc (txn_id : Text) (role : Role) (p p' : Redis Unit) (log : List (Event Command Command.Reply))
    (event : Event Command Command.Reply) :
    handed txn_id ⟨role, ⟨p', log ++ [event]⟩⟩ = handed txn_id ⟨role, ⟨p, log⟩⟩ + one (hands txn_id event) := by
  simp only [handed,List.countP_append,List.countP_singleton]
  cases hands txn_id event <;> simp

theorem countP_append_one (selects : Entry → Bool) (entries : List Entry) (entry : Entry) :
    ((entries ++ [entry]).countP selects : Int) = entries.countP selects + one (selects entry) := by
  rw [List.countP_append,List.countP_singleton]
  cases selects entry <;> simp

theorem countP_cons_one {α : Type} (selects : α → Bool) (first : α) (rest : List α) :
    ((first :: rest).countP selects : Int) = one (selects first) + rest.countP selects := by
  rw [List.countP_cons]
  cases selects first <;> simp [add_comm]

/-- Selected elements are the same when no more than one is selected. -/
theorem countP_one {α : Type} {selects : α → Bool} {items : List α} {a b : α} (few : items.countP selects ≤ 1)
    (first : a ∈ items) (second : b ∈ items) (selected : selects a = true) (selected' : selects b = true) : a = b := by
  rw [List.countP_eq_length_filter] at few
  have first' : a ∈ items.filter selects := List.mem_filter.mpr ⟨first,selected⟩
  have second' : b ∈ items.filter selects := List.mem_filter.mpr ⟨second,selected'⟩
  obtain ⟨only,same⟩ := List.length_eq_one_iff.mp (Nat.le_antisymm few (List.length_pos_of_mem first'))
  rw [same,List.mem_singleton] at first' second'
  rw [first',second']

/-! ### The invariant -/

/-- A request with the transaction belongs into the list. -/
def Routed (setup : Setup) (roles : List Role) (txn_id : Text) (list : String) : Prop :=
  ∃ payload, Asked roles txn_id payload ∧ Keyed setup payload list

/-- The lists after a command hold no more requests and responses than the program gave up. -/
structure Once (setup : Setup) (d : Deployment) : Prop extends Sound setup d where
  routed : ∀ actor ∈ d.actors, ∀ txn_id, 0 < handed txn_id actor → ∃ list, Routed setup d.roles txn_id list
  requests : ∀ txn_id list, Routed setup d.roles txn_id list →
    total (unsent txn_id) d.actors + (d.store.lists list).countP (requests txn_id) + total (handed txn_id) d.actors ≤ 1
  responses : ∀ txn_id, total (holds txn_id) d.actors +
    (d.store.lists setup.direct_resp_topic).countP (responds txn_id) + d.log.countP (popped txn_id) ≤
    total (handed txn_id) d.actors

section
variable {setup : Setup} {roles : List Role} {d : Deployment}

theorem keyed_unique {payload : Bytes} {list list' : String} (keyed : Keyed setup payload list)
    (keyed' : Keyed setup payload list') : list = list' := by
  obtain ⟨k,key,rfl⟩ := keyed
  obtain ⟨k',key',rfl⟩ := keyed'
  cases key.symm.trans key'
  rfl

/-- All requests with a transaction belong into one list. -/
theorem routed_unique {log : List Relays.Event} (unique : Unique roles log) {txn_id : Text} {payload : Bytes}
    {list list' : String} (asked : Asked roles txn_id payload) (keyed : Keyed setup payload list)
    (routed : Routed setup roles txn_id list') : list = list' := by
  obtain ⟨payload',⟨r',i',asks'⟩,keyed'⟩ := routed
  obtain ⟨r,i,asks⟩ := asked
  obtain ⟨_,_,rfl⟩ := unique.once _ _ _ _ _ _ _ asks asks'
  exact keyed_unique keyed keyed'

/-- The entries of a list are requests only if they belong there. -/
theorem request_routed (sound : Sound setup d) {txn_id : Text} {list : String} {entry : Entry}
    (member : entry ∈ d.store.lists list) (requested : requests txn_id entry = true) : Routed setup d.roles txn_id list := by
  have justified := sound.entries list entry member
  rcases entry with ⟨payload,_ | txn⟩ | ⟨_,_,_⟩ | error
  · cases requested
  · have same : txn = txn_id := of_decide_eq_true requested
    subst same
    exact ⟨payload,justified.1,justified.2⟩
  · cases requested
  · cases requested

/-! ### Starts -/

/-- What a new program counts. -/
theorem new_counts (txn_id : Text) (role : Role) (program : Redis Unit) :
    handed txn_id ⟨role, ⟨program, []⟩⟩ = 0 ∧ holds txn_id ⟨role, ⟨program, []⟩⟩ = 0 := ⟨rfl,rfl⟩

/-- A program starts that is no push loop of a request. -/
theorem start_once (once : Once setup d) {role : Role} {program : Redis Unit}
    (other : ∀ r i txn_id payload, role ≠ .asks r i txn_id payload) (keeps : Keeps setup role program ⟨false, none⟩) :
    Once setup (d.start role program) := by
  have quiet : ∀ txn_id, unsent txn_id ⟨role, ⟨program, []⟩⟩ = 0 := by
    intro txn_id
    cases role with
    | asks r i txn payload => exact absurd rfl (other r i txn payload)
    | _ => rfl
  have back : ∀ txn_id list, Routed setup (d.start role program).roles txn_id list → Routed setup d.roles txn_id list := by
    rintro txn_id list ⟨payload,⟨r,i,asks⟩,keyed⟩
    rw [start_roles] at asks
    obtain old | new := List.mem_append.mp asks
    · exact ⟨payload,⟨r,i,old⟩,keyed⟩
    · exact absurd (List.mem_singleton.mp new).symm (other r i txn_id payload)
  refine ⟨start_sound once.toSound other keeps,?_,?_,?_⟩
  · intro actor member txn_id some_pop
    obtain old | new := List.mem_append.mp member
    · obtain ⟨list,payload,asked,keyed⟩ := once.routed actor old txn_id some_pop
      rw [start_roles]
      exact ⟨list,payload,asked.mono (List.subset_append_left _ _),keyed⟩
    · rw [List.mem_singleton.mp new,(new_counts txn_id role program).1] at some_pop
      omega
  · intro txn_id list routed
    have before := once.requests txn_id list (back txn_id list routed)
    simp only [Deployment.start,total_append,quiet,(new_counts txn_id role program).1]
    omega
  · intro txn_id
    have before := once.responses txn_id
    simp only [Deployment.start,total_append,(new_counts txn_id role program).1,(new_counts txn_id role program).2]
    omega

/-- Nothing is known of a transaction before its request. -/
theorem unasked_counts (once : Once setup d) {txn_id : Text} (unknown : ∀ payload, ¬ Asked d.roles txn_id payload) :
    total (unsent txn_id) d.actors = 0 ∧ (∀ list, (d.store.lists list).countP (requests txn_id) = 0) ∧
    total (handed txn_id) d.actors = 0 := by
  refine ⟨sum_map_zero _ (fun actor member => ?_),fun list => ?_,sum_map_zero _ (fun actor member => ?_)⟩
  · obtain ⟨role,thread⟩ := actor
    cases role with
    | asks r i txn payload =>
      have asks : Role.asks r i txn payload ∈ d.roles := List.mem_map_of_mem member
      have apart : txn ≠ txn_id := fun same => unknown payload ⟨r,i,same ▸ asks⟩
      simp [unsent,apart]
    | _ => rfl
  · refine List.countP_eq_zero.mpr (fun entry member requested => ?_)
    obtain ⟨payload,asked,_⟩ := request_routed once.toSound member requested
    exact unknown payload asked
  · have none_popped : ¬ 0 < handed txn_id actor := by
      intro some_pop
      obtain ⟨_,payload,asked,_⟩ := once.routed actor member txn_id some_pop
      exact unknown payload asked
    have nonneg := handed_nonneg txn_id actor
    omega

/-- A request with a new transaction is counted once. -/
theorem asks_once (once : Once setup d) {r : Nat} {relay : Relays.Relay} {txn_id : Text} {payload : Bytes}
    {program : Redis Unit} (here : d.relays[r]? = some relay) (readable : Readable txn_id)
    (fresh : ∀ other, .began other txn_id ∉ d.log)
    (keeps : Keeps setup (.asks r relay.calls.length txn_id payload) program ⟨false, none⟩) :
    Once setup
      { (d.start (.asks r relay.calls.length txn_id payload) program).set_relay r (relay.begin txn_id) with
        log := .began r txn_id :: d.log } := by
  have unknown : ∀ payload, ¬ Asked d.roles txn_id payload := by
    rintro payload' ⟨r',i',asks⟩
    obtain ⟨other,begun⟩ := once.unique.began r' i' txn_id payload' asks
    exact fresh other begun
  have more : d.roles ⊆ (d.start (.asks r relay.calls.length txn_id payload) program).roles := by
    rw [start_roles]
    exact List.subset_append_left _ _
  refine ⟨asks_sound once.toSound here readable fresh keeps,?_,?_,?_⟩
  · intro actor member txn some_pop
    obtain old | new := List.mem_append.mp member
    · obtain ⟨list,payload',asked,keyed⟩ := once.routed actor old txn some_pop
      exact ⟨list,payload',asked.mono more,keyed⟩
    · rw [List.mem_singleton.mp new,(new_counts txn _ program).1] at some_pop
      omega
  · intro txn list routed
    simp only [Deployment.start,Deployment.set_relay,total_append,(new_counts txn _ program).1]
    by_cases same : txn = txn_id
    · subst same
      obtain ⟨no_unsent,no_request,no_pop⟩ := unasked_counts once unknown
      have first : unsent txn ⟨.asks r relay.calls.length txn payload, ⟨program, []⟩⟩ = 1 := by
        simp [unsent,held]
      rw [no_unsent,no_request list,no_pop,first]
      decide
    · have others : unsent txn ⟨.asks r relay.calls.length txn_id payload, ⟨program, []⟩⟩ = 0 := by
        simp [unsent,Ne.symm same]
      have back : Routed setup d.roles txn list := by
        obtain ⟨payload',⟨r',i',asks⟩,keyed⟩ := routed
        have asks' : .asks r' i' txn payload' ∈ (d.start (.asks r relay.calls.length txn_id payload) program).roles := asks
        rw [start_roles] at asks'
        obtain old | new := List.mem_append.mp asks'
        · exact ⟨payload',⟨r',i',old⟩,keyed⟩
        · cases List.mem_singleton.mp new
          exact absurd rfl same
      have before := once.requests txn list back
      omega
  · intro txn
    have before := once.responses txn
    have began : popped txn (.began r txn_id) = false := rfl
    simp only [Deployment.start,Deployment.set_relay,total_append,(new_counts txn _ program).1,
      (new_counts txn _ program).2,List.countP_cons,began]
    simpa using before

/-! ### Commands -/

theorem unsent_sent {txn_id : Text} {role : Role} {thread : Thread Command Command.Reply PyError Unit}
    (sent : (held thread.log).sent = true) : unsent txn_id ⟨role, thread⟩ = 0 := by
  cases role with
  | asks r i txn payload => simp [unsent,sent]
  | _ => rfl

theorem still_lists {c : Command} (still : Still c) (choice : Choice) (s : Store) :
    (exec c choice s).2.lists = s.lists := by
  cases c <;> first | exact still.elim | rfl

theorem still_hands {c : Command} (still : Still c) (txn_id : Text) (reply : c.Reply) :
    hands txn_id ⟨c, reply⟩ = false := by
  cases c <;> first | exact still.elim | rfl

/-- A command is still, a push or a pop. -/
theorem command_cases (c : Command) : Still c ∨ (∃ list entry, c = .rpush list entry) ∨ ∃ list, c = .blpop list := by
  cases c with
  | rpush list entry => exact .inr (.inl ⟨list,entry,rfl⟩)
  | blpop list => exact .inr (.inr ⟨list,rfl⟩)
  | _ => exact .inl trivial

/-- A push adds its entry to its list. -/
theorem pushed_count (selects : Entry → Bool) (target list : String) (entry : Entry) (choice : Choice) (s : Store) :
    (((exec (.rpush target entry) choice s).2.lists list).countP selects : Int) ≤
      (s.lists list).countP selects + one (selects entry) := by
  have nonneg := one_nonneg (selects entry)
  by_cases same : list = target
  · subst same
    simp only [exec,Function.update_self]
    rw [countP_append_one]
  · simp only [exec,Function.update_of_ne same]
    omega

/-- A pop takes nothing from other lists, and its reply from its own. -/
theorem popped_count (selects : Entry → Bool) (target list : String) (choice : Choice) (s : Store) :
    (((exec (.blpop target) choice s).2.lists list).countP selects : Int) ≤ (s.lists list).countP selects ∧
    ∀ entry, list = target → (s.lists target).head? = some entry →
      (((exec (.blpop target) choice s).2.lists list).countP selects : Int) + one (selects entry) =
        (s.lists list).countP selects := by
  by_cases same : list = target
  · subst same
    simp only [exec,Function.update_self]
    cases queue : s.lists list with
    | nil => exact ⟨Int.le_refl _,fun entry _ first => by cases first⟩
    | cons head rest =>
      have nonneg := one_nonneg (selects head)
      rw [countP_cons_one]
      refine ⟨by rw [List.tail_cons]; omega,fun entry _ first => ?_⟩
      cases first
      rw [List.tail_cons]
      omega
  · simp only [exec,Function.update_of_ne same]
    exact ⟨Int.le_refl _,fun entry here => absurd here same⟩

section
variable {n : Nat} {role : Role} {c : Command} {next : Except PyError c.Reply → Redis Unit}
  {log : List (Event Command Command.Reply)}

/-- A request leaves its push loop for its list, and the list for the pass that pops it. -/
theorem command_requests (sound : Sound setup d) (choice : Choice)
    (here : d.actors[n]? = some ⟨role, ⟨.command c next, log⟩⟩)
    (p : Redis Unit) {txn_id : Text} {list : String} (routed : Routed setup d.roles txn_id list) :
    unsent txn_id ⟨role, ⟨p, log ++ [⟨c, (exec c choice d.store).1⟩]⟩⟩ +
        ((exec c choice d.store).2.lists list).countP (requests txn_id) +
        one (hands txn_id ⟨c, (exec c choice d.store).1⟩) ≤
      unsent txn_id ⟨role, ⟨.command c next, log⟩⟩ + (d.store.lists list).countP (requests txn_id) := by
  have member := List.mem_of_getElem? here
  obtain ⟨may,_⟩ := (sound.actors _ member).keeps
  have least := unsent_nonneg txn_id ⟨role, ⟨.command c next, log⟩⟩
  obtain still | ⟨target,entry,rfl⟩ | ⟨target,rfl⟩ := command_cases c
  · have same : unsent txn_id ⟨role, ⟨p, log ++ [⟨c, (exec c choice d.store).1⟩]⟩⟩ =
        unsent txn_id ⟨role, ⟨.command c next, log⟩⟩ := by
      simp only [unsent,held_snoc,still_next still]
    rw [same,still_lists still,still_hands still,one_false]
    omega
  · have sent : unsent txn_id ⟨role, ⟨p, log ++ [⟨.rpush target entry, (exec (.rpush target entry) choice d.store).1⟩]⟩⟩ = 0 :=
      unsent_sent (by rw [held_snoc]; rfl)
    have pushed := pushed_count (requests txn_id) target list entry choice d.store
    have silent : hands txn_id ⟨.rpush target entry, (exec (.rpush target entry) choice d.store).1⟩ = false := rfl
    rw [sent,silent,one_false]
    cases role with
    | asks r i txn payload =>
      obtain ⟨unsent_yet,rfl,_⟩ := may
      have waiting :
          unsent txn_id ⟨.asks r i txn payload, ⟨.command (.rpush target (.inbound payload (some txn))) next, log⟩⟩ =
          one (requests txn_id (.inbound payload (some txn))) := by
        have yet : (held log).sent = false := unsent_yet
        simp only [unsent,requests,yet,Bool.not_false,Bool.and_true]
      omega
    | serves self =>
      obtain ⟨payload,txn,_,_,_,made⟩ := may
      obtain ⟨content_type,response,rfl⟩ := direct_response_made made
      have other : requests txn_id (.direct_response txn content_type response) = false := rfl
      rw [other,one_false] at pushed
      omega
    | other =>
      have other : requests txn_id entry = false := by
        rcases entry with ⟨_,_ | _⟩ | ⟨_,_,_⟩ | _ <;> first | rfl | exact may.elim
      rw [other,one_false] at pushed
      omega
  · cases role with
    | serves self =>
      have nothing : ∀ thread, unsent txn_id ⟨.serves self, thread⟩ = 0 := fun _ => rfl
      obtain ⟨fewer,taken⟩ := popped_count (requests txn_id) target list choice d.store
      rw [nothing,nothing]
      cases first : (d.store.lists target).head? with
      | none =>
        have silent : hands txn_id ⟨.blpop target, (exec (.blpop target) choice d.store).1⟩ = false := by
          simp only [exec,first,hands]
        rw [silent,one_false]
        omega
      | some entry =>
        have hands_entry : hands txn_id ⟨.blpop target, (exec (.blpop target) choice d.store).1⟩ = requests txn_id entry := by
          simp only [exec,first,hands]
        rw [hands_entry]
        cases requested : requests txn_id entry with
        | false =>
          rw [one_false]
          omega
        | true =>
          have inside : entry ∈ d.store.lists target := List.mem_of_head? first
          obtain ⟨payload,asked,keyed⟩ := request_routed sound inside requested
          have same : target = list := routed_unique sound.unique asked keyed routed
          have left := taken entry same.symm first
          rw [requested] at left
          omega
    | asks r i txn payload => exact may.elim
    | other => exact may.elim

/-- A response is pushed by a pass that has popped the request. -/
theorem command_responses (sound : Sound setup d) (choice : Choice)
    (here : d.actors[n]? = some ⟨role, ⟨.command c next, log⟩⟩)
    (p : Redis Unit) (txn_id : Text) (list : String) :
    holds txn_id ⟨role, ⟨p, log ++ [⟨c, (exec c choice d.store).1⟩]⟩⟩ +
        ((exec c choice d.store).2.lists list).countP (responds txn_id) ≤
      holds txn_id ⟨role, ⟨.command c next, log⟩⟩ + (d.store.lists list).countP (responds txn_id) +
        one (hands txn_id ⟨c, (exec c choice d.store).1⟩) := by
  have member := List.mem_of_getElem? here
  obtain ⟨may,_⟩ := (sound.actors _ member).keeps
  simp only [holds,held_snoc]
  obtain still | ⟨target,entry,rfl⟩ | ⟨target,rfl⟩ := command_cases c
  · rw [still_next still,still_lists still,still_hands still,one_false]
    omega
  · have pushed := pushed_count (responds txn_id) target list entry choice d.store
    have silent : hands txn_id ⟨.rpush target entry, (exec (.rpush target entry) choice d.store).1⟩ = false := rfl
    have given_up :
        owes txn_id ((held log).next ⟨.rpush target entry, (exec (.rpush target entry) choice d.store).1⟩) = 0 := rfl
    have before := owes_nonneg txn_id (held log)
    rw [silent,one_false,given_up]
    cases role with
    | asks r i txn payload =>
      obtain ⟨_,rfl,_⟩ := may
      have other : responds txn_id (.inbound payload (some txn)) = false := rfl
      rw [other,one_false] at pushed
      omega
    | serves self =>
      obtain ⟨payload,txn,request,_,_,made⟩ := may
      obtain ⟨content_type,response,rfl⟩ := direct_response_made made
      have owed : owes txn_id (held log) = one (responds txn_id (.direct_response txn content_type response)) := by
        have popped_last : (held log).request = some (payload, txn) := request
        simp only [owes,popped_last,responds]
      omega
    | other =>
      have other : responds txn_id entry = false := by
        rcases entry with ⟨_,_ | _⟩ | ⟨_,_,_⟩ | _ <;> first | rfl | exact may.elim
      rw [other,one_false] at pushed
      omega
  · obtain ⟨fewer,_⟩ := popped_count (responds txn_id) target list choice d.store
    have before := owes_nonneg txn_id (held log)
    cases first : (d.store.lists target).head? with
    | none =>
      have nothing : owes txn_id ((held log).next ⟨.blpop target, (exec (.blpop target) choice d.store).1⟩) = 0 := by
        simp only [exec,first,Held.next,owes]
      have nonneg := one_nonneg (hands txn_id ⟨.blpop target, (exec (.blpop target) choice d.store).1⟩)
      omega
    | some entry =>
      have owed : owes txn_id ((held log).next ⟨.blpop target, (exec (.blpop target) choice d.store).1⟩) =
          one (hands txn_id ⟨.blpop target, (exec (.blpop target) choice d.store).1⟩) := by
        simp only [exec,first,hands]
        rcases entry with ⟨_,_ | _⟩ | ⟨_,_,_⟩ | _ <;> rfl
      omega

end

/-- The sum over the programs when one goes on. -/
theorem total_set (measure : Actor → Int) {n : Nat} {old : Actor} (new : Actor) (here : d.actors[n]? = some old) :
    total measure (d.actors.set n new) = total measure d.actors - measure old + measure new :=
  sum_map_set measure new here

theorem command_once (once : Once setup d) {n : Nat} {role : Role} {c : Command}
    {next : Except PyError c.Reply → Redis Unit} {log : List (Event Command Command.Reply)} (choice : Choice)
    (here : d.actors[n]? = some ⟨role, ⟨.command c next, log⟩⟩) :
    Once setup
      { d with
        store := (exec c choice d.store).2
        actors := d.actors.set n
          ⟨role, ⟨next (.ok (exec c choice d.store).1), log ++ [⟨c, (exec c choice d.store).1⟩]⟩⟩ } := by
  have sound := command_sound once.toSound choice here
  have roles := set_roles here ⟨next (.ok (exec c choice d.store).1), log ++ [⟨c, (exec c choice d.store).1⟩]⟩
  have counted : ∀ txn_id, handed txn_id
      ⟨role, ⟨next (.ok (exec c choice d.store).1), log ++ [⟨c, (exec c choice d.store).1⟩]⟩⟩ =
        handed txn_id ⟨role, ⟨.command c next, log⟩⟩ + one (hands txn_id ⟨c, (exec c choice d.store).1⟩) :=
    fun txn_id => handed_snoc txn_id role _ _ log _
  refine ⟨sound,?_,?_,?_⟩
  · intro actor member txn_id some_pop
    show ∃ list, Routed setup ((d.actors.set n _).map (·.role)) txn_id list
    rw [roles]
    obtain old | rfl := List.mem_or_eq_of_mem_set member
    · exact once.routed actor old txn_id some_pop
    · rw [counted] at some_pop
      cases now : hands txn_id ⟨c, (exec c choice d.store).1⟩ with
      | false =>
        rw [now,one_false,Int.add_zero] at some_pop
        exact once.routed _ (List.mem_of_getElem? here) txn_id some_pop
      | true =>
        obtain still | ⟨target,entry,rfl⟩ | ⟨target,rfl⟩ := command_cases c
        · rw [still_hands still] at now
          cases now
        · cases now
        · simp only [exec] at now
          cases first : (d.store.lists target).head? with
          | none =>
            rw [first] at now
            cases now
          | some entry =>
            rw [first] at now
            exact ⟨target,request_routed once.toSound (List.mem_of_head? first) now⟩
  · intro txn_id list routed
    have routed' : Routed setup ((d.actors.set n _).map (·.role)) txn_id list := routed
    rw [roles] at routed'
    have before := once.requests txn_id list routed'
    have balance := command_requests once.toSound choice here (next (.ok (exec c choice d.store).1)) routed'
    simp only [total_set _ _ here,counted]
    omega
  · intro txn_id
    have before := once.responses txn_id
    have balance := command_responses once.toSound choice here (next (.ok (exec c choice d.store).1)) txn_id
      setup.direct_resp_topic
    simp only [total_set _ _ here,counted]
    omega

/-- A command that fails changes no count. -/
theorem fails_once (once : Once setup d) {n : Nat} {role : Role} {c : Command}
    {next : Except PyError c.Reply → Redis Unit} {log : List (Event Command Command.Reply)} (error : PyError)
    (here : d.actors[n]? = some ⟨role, ⟨.command c next, log⟩⟩) :
    Once setup { d with actors := d.actors.set n ⟨role, ⟨next (.error error), log⟩⟩ } := by
  have sound : Sound setup { d with actors := d.actors.set n ⟨role, ⟨next (.error error), log⟩⟩ } :=
    step_sound once.toSound (.fails error here)
  have roles := set_roles here ⟨next (.error error), log⟩
  have same : ∀ measure : Actor → Int, measure ⟨role, ⟨next (.error error), log⟩⟩ = measure ⟨role, ⟨.command c next, log⟩⟩ →
      total measure (d.actors.set n ⟨role, ⟨next (.error error), log⟩⟩) = total measure d.actors := by
    intro measure unchanged
    rw [total_set measure _ here,unchanged]
    omega
  refine ⟨sound,?_,?_,?_⟩
  · intro actor member txn_id some_pop
    show ∃ list, Routed setup ((d.actors.set n _).map (·.role)) txn_id list
    rw [roles]
    obtain old | rfl := List.mem_or_eq_of_mem_set member
    · exact once.routed actor old txn_id some_pop
    · exact once.routed _ (List.mem_of_getElem? here) txn_id some_pop
  · intro txn_id list routed
    have routed' : Routed setup ((d.actors.set n _).map (·.role)) txn_id list := routed
    rw [roles] at routed'
    have unsent_same := same (unsent txn_id) rfl
    have handed_same := same (handed txn_id) rfl
    have before := once.requests txn_id list routed'
    simp only [unsent_same,handed_same]
    exact before
  · intro txn_id
    have holds_same := same (holds txn_id) rfl
    have handed_same := same (handed txn_id) rfl
    have before := once.responses txn_id
    simp only [holds_same,handed_same]
    exact before

/-- A relay logs the response that it pops. -/
theorem received_count (unique : Unique d.roles d.log) {list : String} {entry : Entry}
    (justified : Justified setup d.roles list entry) (r : Nat) (txn_id : Text) :
    ((Relays.received r (element setup entry)).countP (popped txn_id) : Int) = one (responds txn_id entry) := by
  cases entry with
  | inbound payload txn =>
    have silent : Relays.direct_response (element setup (.inbound payload txn)) = .ok none := by
      cases txn <;> rfl
    rw [Relays.received,silent]
    rfl
  | direct_response txn content_type response =>
    obtain ⟨payload,⟨r',i',asks⟩,_⟩ := justified
    rw [Relays.received,element_response setup content_type response (unique.readable r' i' txn payload asks)]
    simp only [List.countP_singleton,popped,responds]
    by_cases same : txn = txn_id <;> simp [same]
  | invalid error => rfl

theorem pops_once (once : Once setup d) {r : Nat} {relay : Relays.Relay} {entry : Entry} {rest : List Entry}
    (here : d.relays[r]? = some relay) (listening : relay.listening = true)
    (queue : d.store.lists setup.direct_resp_topic = entry :: rest) :
    Once setup
      { d.set_relay r (relay.receive (element setup entry)) with
        store := { d.store with lists := Function.update d.store.lists setup.direct_resp_topic rest }
        log := Relays.received r (element setup entry) ++ d.log } := by
  have taken : ∀ (selects : Entry → Bool) list,
      ((Function.update d.store.lists setup.direct_resp_topic rest list).countP selects : Int) ≤
        (d.store.lists list).countP selects := by
    intro selects list
    by_cases same : list = setup.direct_resp_topic
    · subst same
      rw [Function.update_self,queue,countP_cons_one]
      have nonneg := one_nonneg (selects entry)
      omega
    · rw [Function.update_of_ne same]
  refine ⟨step_sound once.toSound (.pops here listening queue),once.routed,fun txn_id list routed => ?_,fun txn_id => ?_⟩
  · have before := once.requests txn_id list routed
    have fewer := taken (requests txn_id) list
    simp only [Deployment.set_relay]
    omega
  · have before := once.responses txn_id
    have justified := once.entries setup.direct_resp_topic entry (by rw [queue]; exact List.mem_cons_self)
    have logged := received_count once.unique justified r txn_id
    rw [queue,countP_cons_one] at before
    simp only [Deployment.set_relay,Function.update_self,List.countP_append,Int.natCast_add,logged]
    omega

theorem step_once {d' : Deployment} (once : Once setup d) (step : Step setup d d') : Once setup d' := by
  have sound := step_sound once.toSound step
  cases step with
  | serves self => exact start_once once (fun _ _ _ _ same => by cases same) (serves_keeps self _)
  | bystands bystander => exact start_once once (fun _ _ _ _ same => by cases same) (bystander_keeps bystander _)
  | raises here http error => exact ⟨sound,once.routed,once.requests,once.responses⟩
  | plain patience readings here http prepared written =>
    exact start_once once (fun _ _ _ _ same => by cases same) (plain_keeps patience readings _ written)
  | asks txn_id patience readings here http readable fresh prepared written =>
    exact asks_once once here readable fresh (asks_keeps _ _ patience readings readable written)
  | web_socket here ws => exact ⟨sound,once.routed,once.requests,once.responses⟩
  | command choice here => exact command_once once choice here
  | fails error here => exact fails_once once error here
  | pushed here call actor ended => exact ⟨sound,once.routed,once.requests,once.responses⟩
  | own own step => exact ⟨sound,once.routed,once.requests,once.responses⟩
  | pops here listening queue => exact pops_once once here listening queue

theorem reachable_once {types : List Relays.TransportType} (reach : Reachable setup types d) : Once setup d := by
  induction reach with
  | refl =>
    refine ⟨reachable_sound .refl,fun _ member => absurd member List.not_mem_nil,?_,?_⟩
    · rintro txn_id list ⟨payload,⟨r,i,asks⟩,_⟩
      exact absurd asks List.not_mem_nil
    · intro txn_id
      exact Int.le_refl 0
  | tail _ step ih => exact step_once ih step

/-- In every run the passes of all instances pop each request once at most, and a request that was
    popped is in no list any more. Of the responses to it, those that wait and those that the relays
    have popped are together no more than that; so no relay ever replaces a response. -/
theorem requests_once {types : List Relays.TransportType} (reach : Reachable setup types d) (txn_id : Text) :
    (∀ list, ((d.store.lists list).countP (requests txn_id) : Int) + total (handed txn_id) d.actors ≤ 1) ∧
    ((d.store.lists setup.direct_resp_topic).countP (responds txn_id) : Int) + d.log.countP (popped txn_id) ≤
      total (handed txn_id) d.actors ∧
    ∀ r r' data data', .popped r txn_id data ∈ d.log → .popped r' txn_id data' ∈ d.log → r = r' ∧ data = data' := by
  have once := reachable_once reach
  have held_least := total_nonneg (fun actor => owes_nonneg txn_id (held actor.thread.log)) d.actors
  have unsent_least := total_nonneg (unsent_nonneg txn_id) d.actors
  have handed_least := total_nonneg (handed_nonneg txn_id) d.actors
  have responses := once.responses txn_id
  have waiting : ∀ list, 0 < (d.store.lists list).countP (requests txn_id) → Routed setup d.roles txn_id list := by
    intro list some_request
    obtain ⟨entry,member,requested⟩ := List.countP_pos_iff.mp some_request
    exact request_routed once.toSound member requested
  have handed_one : total (handed txn_id) d.actors ≤ 1 := by
    by_cases some_pop : ∃ actor ∈ d.actors, 0 < handed txn_id actor
    · obtain ⟨actor,member,pop⟩ := some_pop
      obtain ⟨list,routed⟩ := once.routed actor member txn_id pop
      have most := once.requests txn_id list routed
      omega
    · have none_popped : total (handed txn_id) d.actors = 0 := by
        refine sum_map_zero _ (fun actor member => ?_)
        have nonneg := handed_nonneg txn_id actor
        have not_popped : ¬ 0 < handed txn_id actor := fun pop => some_pop ⟨actor,member,pop⟩
        omega
      omega
  have popped_one : d.log.countP (popped txn_id) ≤ 1 := by
    change total (holds txn_id) d.actors + _ + _ ≤ _ at responses
    have holds_least : 0 ≤ total (holds txn_id) d.actors := held_least
    omega
  refine ⟨fun list => ?_,?_,fun r r' data data' first second => ?_⟩
  · by_cases some_request : 0 < (d.store.lists list).countP (requests txn_id)
    · have most := once.requests txn_id list (waiting list some_request)
      omega
    · omega
  · have holds_least : 0 ≤ total (holds txn_id) d.actors := held_least
    omega
  · have chosen : ∀ {other} {response : Json}, popped txn_id (.popped other txn_id response) = true := decide_eq_true rfl
    cases countP_one popped_one first second chosen chosen
    exact ⟨rfl,rfl⟩

end

/-- A response was popped, and no other comes. -/
theorem requests_once_a : ∃ d, Reachable setup_a [.http] d ∧ .popped 0 (text "x") data_a ∈ d.log ∧
    ∀ r data, .popped r (text "x") data ∈ d.log → r = 0 ∧ data = data_a := by
  obtain ⟨d,reach,logged,_⟩ := reaches_a
  obtain ⟨_,_,one⟩ := requests_once reach (text "x")
  exact ⟨d,reach,logged,fun r data other => one r 0 data data_a other logged⟩

end AcapyRedis.Handing
