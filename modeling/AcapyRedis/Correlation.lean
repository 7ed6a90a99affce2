import AcapyRedis.Deployments
import AcapyRedis.Replies

/-!
A direct response answers the request of the call that gets it. Every entry of a list, every
response in the map of a relay and every answer of a call goes back to a request that was made
and to a session that handled its message (`Sound`). Any order of the commands of all programs
keeps that, also when some of them fail (`step_sound`).
-/
namespace AcapyRedis.Correlation
open AcapyRedis.Programs AcapyRedis.Programs.Program AcapyRedis.Python AcapyRedis.RedisStore AcapyRedis.Utils
open AcapyRedis.Inbound AcapyRedis.Threads AcapyRedis.Threads.Discipline AcapyRedis.Records
open AcapyRedis.JsonText AcapyRedis.Handlers AcapyRedis.Responses AcapyRedis.Wire AcapyRedis.Deployments
open AcapyRedis.Replies (direct_response_made)
open AcapyRedis.Base64

/-! ### What things go back to -/

/-- A request was made with the transaction and the message data. -/
def Asked (roles : List Role) (txn_id : Text) (payload : Bytes) : Prop := ∃ r i, .asks r i txn_id payload ∈ roles

/-- The entry is what an instance makes of the answer of a session to a request. -/
def Answered (roles : List Role) (txn_id : Text) (payload : Bytes) (entry : Entry) : Prop :=
  Asked roles txn_id payload ∧ ∃ self, .serves self ∈ roles ∧ AnswerOf self txn_id payload entry

/-- The data is that of a response to the request. -/
def Reply (setup : Setup) (roles : List Role) (txn_id : Text) (payload : Bytes) (data : Json) : Prop :=
  ∃ content_type response, Answered roles txn_id payload (.direct_response txn_id content_type response) ∧
    data = response_data setup.mime content_type response

/-- An entry of a list is a request in the list of its key, the answer to a request, or neither. -/
def Justified (setup : Setup) (roles : List Role) (list : String) : Entry → Prop
  | .inbound payload (some txn_id) => Asked roles txn_id payload ∧ Keyed setup payload list
  | .direct_response txn_id content_type response =>
    ∃ payload, Answered roles txn_id payload (.direct_response txn_id content_type response)
  | _ => True

/-- What a program holds after a log. -/
def held (log : List (Event Command Command.Reply)) : Held := log.foldl Held.next ⟨false, none⟩

@[simp] theorem held_snoc (log : List (Event Command Command.Reply)) (event : Event Command Command.Reply) :
    held (log ++ [event]) = (held log).next event := by simp [held]

/-- A program keeps to its role and has popped what was asked. -/
structure Fits (setup : Setup) (roles : List Role) (actor : Actor) : Prop where
  keeps : Keeps setup actor.role actor.thread.program (held actor.thread.log)
  request : ∀ payload txn_id, (held actor.thread.log).request = some (payload, txn_id) → Asked roles txn_id payload

/-- A call works on its own request, and its answer is a reply to that. -/
def Bound (setup : Setup) (roles : List Role) (r i : Nat) : Relays.Handling → Prop
  | .pushing txn_id => ∃ payload, .asks r i txn_id payload ∈ roles
  | .waiting txn_id => ∃ payload, .asks r i txn_id payload ∈ roles
  | .answered (some (.response_data data)) =>
    ∃ txn_id payload, .asks r i txn_id payload ∈ roles ∧ Reply setup roles txn_id payload data
  | _ => True

/-- The map of a relay holds replies. -/
structure Fair (setup : Setup) (roles : List Role) (r : Nat) (relay : Relays.Relay) : Prop where
  stored : ∀ txn_id data, relay.direct_response_txn_request_map txn_id = some (.response_data data) →
    ∃ payload, Reply setup roles txn_id payload data
  calls : ∀ i handling, relay.calls[i]? = some handling → Bound setup roles r i handling

/-- A transaction has one request. -/
structure Unique (roles : List Role) (log : List Relays.Event) : Prop where
  readable : ∀ r i txn_id payload, .asks r i txn_id payload ∈ roles → Readable txn_id
  began : ∀ r i txn_id payload, .asks r i txn_id payload ∈ roles → ∃ other, .began other txn_id ∈ log
  once : ∀ r i r' i' txn_id payload payload', .asks r i txn_id payload ∈ roles → .asks r' i' txn_id payload' ∈ roles →
    r = r' ∧ i = i' ∧ payload = payload'

structure Sound (setup : Setup) (d : Deployment) : Prop where
  actors : ∀ actor ∈ d.actors, Fits setup d.roles actor
  entries : ∀ list, ∀ entry ∈ d.store.lists list, Justified setup d.roles list entry
  relays : ∀ r relay, d.relays[r]? = some relay → Fair setup d.roles r relay
  unique : Unique d.roles d.log

/-! ### More programs -/

section
variable {setup : Setup} {roles roles' : List Role}

theorem Asked.mono {txn_id : Text} {payload : Bytes} (asked : Asked roles txn_id payload) (more : roles ⊆ roles') :
    Asked roles' txn_id payload := by
  obtain ⟨r,i,member⟩ := asked
  exact ⟨r,i,more member⟩

theorem Answered.mono {txn_id : Text} {payload : Bytes} {entry : Entry} (answered : Answered roles txn_id payload entry)
    (more : roles ⊆ roles') : Answered roles' txn_id payload entry := by
  obtain ⟨asked,self,serves,answer⟩ := answered
  exact ⟨asked.mono more,self,more serves,answer⟩

theorem Reply.mono {txn_id : Text} {payload : Bytes} {data : Json} (reply : Reply setup roles txn_id payload data)
    (more : roles ⊆ roles') : Reply setup roles' txn_id payload data := by
  obtain ⟨content_type,response,answered,same⟩ := reply
  exact ⟨content_type,response,answered.mono more,same⟩

theorem Justified.mono {list : String} {entry : Entry} (justified : Justified setup roles list entry)
    (more : roles ⊆ roles') : Justified setup roles' list entry := by
  cases entry with
  | inbound payload txn_id =>
    cases txn_id with
    | none => trivial
    | some txn_id => exact ⟨justified.1.mono more,justified.2⟩
  | direct_response txn_id content_type response =>
    obtain ⟨payload,answered⟩ := justified
    exact ⟨payload,answered.mono more⟩
  | invalid error => trivial

theorem Fits.mono {actor : Actor} (fits : Fits setup roles actor) (more : roles ⊆ roles') : Fits setup roles' actor :=
  ⟨fits.keeps,fun payload txn_id same => (fits.request payload txn_id same).mono more⟩

theorem Bound.mono {r i : Nat} {handling : Relays.Handling} (bound : Bound setup roles r i handling)
    (more : roles ⊆ roles') : Bound setup roles' r i handling := by
  cases handling with
  | pushing txn_id =>
    obtain ⟨payload,member⟩ := bound
    exact ⟨payload,more member⟩
  | waiting txn_id =>
    obtain ⟨payload,member⟩ := bound
    exact ⟨payload,more member⟩
  | answered value =>
    rcases value with _ | _ | data
    · trivial
    · trivial
    · obtain ⟨txn_id,payload,member,reply⟩ := bound
      exact ⟨txn_id,payload,more member,reply.mono more⟩
  | timed_out => trivial
  | raised error => trivial

theorem Fair.mono {r : Nat} {relay : Relays.Relay} (fair : Fair setup roles r relay) (more : roles ⊆ roles') :
    Fair setup roles' r relay := by
  refine ⟨fun txn_id data found => ?_,fun i handling call => (fair.calls i handling call).mono more⟩
  obtain ⟨payload,reply⟩ := fair.stored txn_id data found
  exact ⟨payload,reply.mono more⟩

end

/-! ### Relays -/

/-- What stands in a list with one replaced element. -/
theorem set_cases {α : Type} {items : List α} {n m : Nat} {item found : α} (there : (items.set n item)[m]? = some found) :
    m = n ∧ found = item ∨ m ≠ n ∧ items[m]? = some found := by
  by_cases same : m = n
  · subst same
    obtain ⟨inside,is⟩ := List.getElem?_eq_some_iff.mp there
    rw [List.getElem_set_self] at is
    exact .inl ⟨rfl,is.symm⟩
  · rw [List.getElem?_set_ne (Ne.symm same)] at there
    exact .inr ⟨same,there⟩

section
variable {setup : Setup} {roles : List Role} {r : Nat} {relay : Relays.Relay}

theorem refuse_fair (fair : Fair setup roles r relay) (error : PyError) : Fair setup roles r (relay.refuse error) := by
  refine ⟨fair.stored,fun i handling call => ?_⟩
  rw [Relays.Relay.refuse,List.getElem?_append] at call
  split at call
  · exact fair.calls i handling call
  · have last := List.mem_singleton.mp (List.mem_of_getElem? call)
    subst last
    trivial

theorem goes_on_fair (fair : Fair setup roles r relay) {i : Nat} {handling : Relays.Handling}
    (bound : Bound setup roles r i handling) : Fair setup roles r (relay.goes_on i handling) := by
  refine ⟨fair.stored,fun j other call => ?_⟩
  rcases set_cases call with ⟨rfl,rfl⟩ | ⟨_,before⟩
  · exact bound
  · exact fair.calls j other before

/-- What is stored for a transaction is its request, or the data of a reply. -/
theorem store_fair (fair : Fair setup roles r relay) {txn_id : Text} {entry : Relays.Entry}
    (reply : ∀ data, entry = .response_data data → ∃ payload, Reply setup roles txn_id payload data) :
    Fair setup roles r (relay.store txn_id entry) := by
  refine ⟨fun other data found => ?_,fair.calls⟩
  by_cases same : other = txn_id
  · subst same
    have stored : (relay.store other entry).direct_response_txn_request_map other = some entry := Function.update_self _ _ _
    exact reply data (Option.some.inj (stored.symm.trans found))
  · have kept : (relay.store txn_id entry).direct_response_txn_request_map other =
        relay.direct_response_txn_request_map other := Function.update_of_ne same _ _
    exact fair.stored other data (kept.symm.trans found)

theorem begin_fair (fair : Fair setup roles r relay) {txn_id : Text} {payload : Bytes}
    (asks : .asks r relay.calls.length txn_id payload ∈ roles) : Fair setup roles r (relay.begin txn_id) := by
  have stores : Fair setup roles r (relay.store txn_id .request) := store_fair fair (fun _ same => by cases same)
  refine ⟨stores.stored,fun i handling call => ?_⟩
  rw [Relays.Relay.begin,List.getElem?_append] at call
  split at call
  · exact fair.calls i handling call
  · next beyond =>
    have last := List.mem_singleton.mp (List.mem_of_getElem? call)
    obtain ⟨inside,_⟩ := List.getElem?_eq_some_iff.mp call
    rw [List.length_singleton] at inside
    have here : i = relay.calls.length := by omega
    subst last here
    exact ⟨payload,asks⟩

/-- A relay reads the answer of an instance as the data of its transaction. -/
theorem element_response (setup : Setup) {txn_id : Text} (content_type : Option ContentType) (response : Bytes)
    (readable : Readable txn_id) :
    Relays.direct_response (element setup (.direct_response txn_id content_type response)) =
      .ok (some (.str txn_id, response_data setup.mime content_type response)) := by
  have faithful : Faithful setup.json (response_record setup.mime txn_id content_type response) :=
    python_json_faithful setup.floats setup.codec
      (response_writable setup.deep setup.mime readable (fun kind _ => setup.typed kind) response)
  obtain ⟨msg,written⟩ := setup.json.encodes (response_record setup.mime txn_id content_type response)
  simp only [element,written,ok_bind,popped,decode_utf8 written,faithful.text]
  rfl

/-- A relay stores what an entry of the direct response topic is the answer to. -/
theorem receive_fair (fair : Fair setup roles r relay) {log : List Relays.Event} (unique : Unique roles log) {list : String}
    {entry : Entry} (justified : Justified setup roles list entry) :
    Fair setup roles r (relay.receive (element setup entry)) := by
  cases entry with
  | inbound payload txn_id =>
    have silent : Relays.direct_response (element setup (.inbound payload txn_id)) = .ok none := by
      cases txn_id <;> rfl
    rw [Relays.Relay.receive,silent]
    exact fair
  | direct_response txn_id content_type response =>
    obtain ⟨payload,answered⟩ := justified
    obtain ⟨r',i',asks⟩ := answered.1
    rw [Relays.Relay.receive,element_response setup content_type response (unique.readable r' i' txn_id payload asks)]
    refine store_fair fair (fun data same => ⟨payload,content_type,response,answered,?_⟩)
    cases same
    rfl
  | invalid error => exact ⟨fair.stored,fair.calls⟩

/-- A look answers what is stored. The other steps of a relay answer nothing. -/
theorem own_fair {s s' : Relays.Service} {a : Relays.Action} (own : Own a) (step : Relays.Step s a s')
    (once : ∀ r i r' i' txn_id payload payload', .asks r i txn_id payload ∈ roles → .asks r' i' txn_id payload' ∈ roles →
      r = r' ∧ i = i' ∧ payload = payload')
    (fair : ∀ r relay, s.relays[r]? = some relay → Fair setup roles r relay) :
    ∀ r relay, s'.relays[r]? = some relay → Fair setup roles r relay := by
  have changed : ∀ r relay', Fair setup roles r relay' →
      ∀ other relay, (s.relays.set r relay')[other]? = some relay → Fair setup roles other relay := by
    intro r relay' new other relay there
    rcases set_cases there with ⟨rfl,rfl⟩ | ⟨_,before⟩
    · exact new
    · exact fair other relay before
  cases step with
  | look_none here call running none => exact fair
  | look here call running found =>
    rename_i r i relay txn_id entry
    refine changed _ _ (goes_on_fair (fair _ _ here) ?_)
    cases entry with
    | request => trivial
    | response_data data =>
      obtain ⟨payload,asks⟩ := (fair _ _ here).calls i _ call
      obtain ⟨payload',reply⟩ := (fair _ _ here).stored txn_id data found
      obtain ⟨_,_,⟨⟨r',i',asks'⟩,_⟩,_⟩ := id reply
      obtain ⟨_,_,rfl⟩ := once _ _ _ _ _ _ _ asks asks'
      exact ⟨txn_id,payload,asks,reply⟩
  | look_stopped here call stopped => exact changed _ _ (goes_on_fair (fair _ _ here) trivial)
  | timeout here call => exact changed _ _ (goes_on_fair (fair _ _ here) trivial)
  | stop here => exact changed _ _ ⟨(fair _ _ here).stored,(fair _ _ here).calls⟩
  | _ => exact own.elim

end

/-! ### Steps -/

section
variable {setup : Setup} {d : Deployment}

theorem set_relay_sound (sound : Sound setup d) {r : Nat} {relay : Relays.Relay} (fair : Fair setup d.roles r relay) :
    Sound setup (d.set_relay r relay) := by
  refine ⟨sound.actors,sound.entries,fun other relay' there => ?_,sound.unique⟩
  rcases set_cases there with ⟨rfl,rfl⟩ | ⟨_,before⟩
  · exact fair
  · exact sound.relays other relay' before

theorem start_roles (d : Deployment) (role : Role) (program : Redis Unit) :
    (d.start role program).roles = d.roles ++ [role] := by
  simp [Deployment.start,Deployment.roles]

theorem start_fits (sound : Sound setup d) {role : Role} {program : Redis Unit}
    (keeps : Keeps setup role program ⟨false, none⟩) :
    ∀ actor ∈ (d.start role program).actors, Fits setup (d.roles ++ [role]) actor := by
  intro actor member
  obtain old | new := List.mem_append.mp member
  · exact (sound.actors actor old).mono (List.subset_append_left _ _)
  · rw [List.mem_singleton.mp new]
    exact ⟨keeps,fun _ _ none => by cases none⟩

/-- A program starts that is no push loop of a request. -/
theorem start_sound (sound : Sound setup d) {role : Role} {program : Redis Unit}
    (other : ∀ r i txn_id payload, role ≠ .asks r i txn_id payload) (keeps : Keeps setup role program ⟨false, none⟩) :
    Sound setup (d.start role program) := by
  have more : d.roles ⊆ d.roles ++ [role] := List.subset_append_left _ _
  have asked : ∀ r i txn_id payload, .asks r i txn_id payload ∈ d.roles ++ [role] → .asks r i txn_id payload ∈ d.roles := by
    intro r i txn_id payload member
    obtain old | new := List.mem_append.mp member
    · exact old
    · exact absurd (List.mem_singleton.mp new).symm (other r i txn_id payload)
  constructor
  · rw [start_roles]
    exact start_fits sound keeps
  · rw [start_roles]
    exact fun list entry member => (sound.entries list entry member).mono more
  · rw [start_roles]
    exact fun r relay here => (sound.relays r relay here).mono more
  · rw [start_roles]
    exact ⟨fun r i txn_id payload member => sound.unique.readable r i txn_id payload (asked _ _ _ _ member),
      fun r i txn_id payload member => sound.unique.began r i txn_id payload (asked _ _ _ _ member),
      fun _ _ _ _ _ _ _ member member' => sound.unique.once _ _ _ _ _ _ _ (asked _ _ _ _ member) (asked _ _ _ _ member')⟩

/-- A request with a new transaction. -/
theorem asks_sound (sound : Sound setup d) {r : Nat} {relay : Relays.Relay} {txn_id : Text} {payload : Bytes}
    {program : Redis Unit} (here : d.relays[r]? = some relay) (readable : Readable txn_id)
    (fresh : ∀ other, .began other txn_id ∉ d.log)
    (keeps : Keeps setup (.asks r relay.calls.length txn_id payload) program ⟨false, none⟩) :
    Sound setup
      { (d.start (.asks r relay.calls.length txn_id payload) program).set_relay r (relay.begin txn_id) with
        log := .began r txn_id :: d.log } := by
  have more : d.roles ⊆ d.roles ++ [.asks r relay.calls.length txn_id payload] := List.subset_append_left _ _
  have asked : .asks r relay.calls.length txn_id payload ∈ d.roles ++ [.asks r relay.calls.length txn_id payload] :=
    List.mem_append_right _ List.mem_cons_self
  have unknown : ∀ r i payload, .asks r i txn_id payload ∉ d.roles := by
    intro r i payload member
    obtain ⟨other,begun⟩ := sound.unique.began r i txn_id payload member
    exact fresh other begun
  have roles : Deployment.roles { (d.start (.asks r relay.calls.length txn_id payload) program).set_relay r
      (relay.begin txn_id) with log := .began r txn_id :: d.log } =
      d.roles ++ [.asks r relay.calls.length txn_id payload] := start_roles d _ program
  constructor
  · rw [roles]
    exact start_fits sound keeps
  · rw [roles]
    exact fun list entry member => (sound.entries list entry member).mono more
  · rw [roles]
    intro other relay' there
    rcases set_cases there with ⟨rfl,rfl⟩ | ⟨_,before⟩
    · exact begin_fair ((sound.relays _ _ here).mono more) asked
    · exact (sound.relays other relay' before).mono more
  · rw [roles]
    refine ⟨fun r' i' txn payload' member => ?_,fun r' i' txn payload' member => ?_,?_⟩
    · obtain old | new := List.mem_append.mp member
      · exact sound.unique.readable r' i' txn payload' old
      · cases List.mem_singleton.mp new
        exact readable
    · obtain old | new := List.mem_append.mp member
      · obtain ⟨other,begun⟩ := sound.unique.began r' i' txn payload' old
        exact ⟨other,List.mem_cons_of_mem _ begun⟩
      · cases List.mem_singleton.mp new
        exact ⟨r,List.mem_cons_self⟩
    · intro r₁ i₁ r₂ i₂ txn payload₁ payload₂ first second
      obtain old | new := List.mem_append.mp first
      · obtain old' | new' := List.mem_append.mp second
        · exact sound.unique.once _ _ _ _ _ _ _ old old'
        · cases List.mem_singleton.mp new'
          exact absurd old (unknown r₁ i₁ payload₁)
      · cases List.mem_singleton.mp new
        obtain old' | new' := List.mem_append.mp second
        · exact absurd old' (unknown r₂ i₂ payload₂)
        · cases List.mem_singleton.mp new'
          exact ⟨rfl,rfl,rfl⟩

theorem set_roles {n : Nat} {role : Role} {thread : Thread Command Command.Reply PyError Unit}
    (here : d.actors[n]? = some ⟨role, thread⟩) (thread' : Thread Command Command.Reply PyError Unit) :
    (d.actors.set n ⟨role, thread'⟩).map (·.role) = d.roles := by
  have same : d.roles[n]? = some role := by rw [Deployment.roles,List.getElem?_map,here]; rfl
  rw [List.map_set]
  exact set_same same

/-- A program goes on with a log of what was asked. -/
theorem set_sound (sound : Sound setup d) {n : Nat} {role : Role}
    {thread thread' : Thread Command Command.Reply PyError Unit}
    (here : d.actors[n]? = some ⟨role, thread⟩) {store : Store}
    (entries : ∀ list, ∀ entry ∈ store.lists list, Justified setup d.roles list entry)
    (fits : Fits setup d.roles ⟨role, thread'⟩) :
    Sound setup { d with store := store, actors := d.actors.set n ⟨role, thread'⟩ } := by
  have roles : Deployment.roles { d with store := store, actors := d.actors.set n ⟨role, thread'⟩ } = d.roles :=
    set_roles here thread'
  constructor
  · rw [roles]
    intro actor member
    obtain old | rfl := List.mem_or_eq_of_mem_set member
    · exact sound.actors actor old
    · exact fits
  · rw [roles]
    exact entries
  · rw [roles]
    exact sound.relays
  · rw [roles]
    exact sound.unique

/-- A command pushes what the role may push, and pops what was justified. -/
theorem command_sound (sound : Sound setup d) {n : Nat} {role : Role} {c : Command}
    {next : Except PyError c.Reply → Redis Unit} {log : List (Event Command Command.Reply)} (choice : Choice)
    (here : d.actors[n]? = some ⟨role, ⟨.command c next, log⟩⟩) :
    Sound setup
      { d with
        store := (exec c choice d.store).2
        actors := d.actors.set n
          ⟨role, ⟨next (.ok (exec c choice d.store).1), log ++ [⟨c, (exec c choice d.store).1⟩]⟩⟩ } := by
  have member := List.mem_of_getElem? here
  have fits := sound.actors _ member
  have role_in : role ∈ d.roles := List.mem_map_of_mem member
  obtain ⟨may,answered,_⟩ := fits.keeps
  have keeps : Keeps setup role (next (.ok (exec c choice d.store).1)) (held (log ++ [⟨c, (exec c choice d.store).1⟩])) := by
    rw [held_snoc]
    exact answered _ trivial
  refine set_sound sound here ?_ ⟨keeps,?_⟩
  · intro list entry inside
    cases c with
    | rpush target pushed =>
      by_cases same : list = target
      · subst same
        simp only [exec,Function.update_self] at inside
        obtain old | new := List.mem_append.mp inside
        · exact sound.entries list entry old
        · rw [List.mem_singleton.mp new]
          cases role with
          | asks r i txn_id payload =>
            obtain ⟨_,rfl,keyed⟩ := may
            exact ⟨⟨r,i,role_in⟩,keyed⟩
          | serves self =>
            obtain ⟨payload,txn_id,request,answer⟩ := may
            have asked := fits.request payload txn_id request
            obtain ⟨response,session,made⟩ := id answer
            obtain ⟨content_type,bytes,rfl⟩ := direct_response_made made
            exact ⟨payload,asked,self,role_in,answer⟩
          | other =>
            rcases pushed with ⟨payload,_ | txn_id⟩ | ⟨_,_,_⟩ | error
            · trivial
            · exact may.elim
            · exact may.elim
            · trivial
      · simp only [exec,Function.update_of_ne same] at inside
        exact sound.entries list entry inside
    | blpop target =>
      by_cases same : list = target
      · subst same
        simp only [exec,Function.update_self] at inside
        exact sound.entries list entry (List.mem_of_mem_tail inside)
      · simp only [exec,Function.update_of_ne same] at inside
        exact sound.entries list entry inside
    | _ => exact sound.entries list entry inside
  · intro payload txn_id request
    simp only [held_snoc] at request
    cases c with
    | rpush target pushed => cases request
    | blpop target =>
      simp only [exec] at request
      cases queue : d.store.lists target with
      | nil =>
        rw [queue] at request
        cases request
      | cons first rest =>
        rw [queue] at request
        have justified := sound.entries target first (by simp [queue])
        rcases first with ⟨payload',_ | txn_id'⟩ | ⟨_,_,_⟩ | error
        · cases request
        · cases request
          exact justified.1
        · cases request
        · cases request
    | _ => exact fits.request payload txn_id request

theorem step_sound {d' : Deployment} (sound : Sound setup d) (step : Step setup d d') : Sound setup d' := by
  cases step with
  | serves self => exact start_sound sound (fun _ _ _ _ same => by cases same) (serves_keeps self _)
  | bystands bystander => exact start_sound sound (fun _ _ _ _ same => by cases same) (bystander_keeps bystander _)
  | raises here http error => exact set_relay_sound sound (refuse_fair (sound.relays _ _ here) _)
  | plain patience readings here http prepared written =>
    exact start_sound sound (fun _ _ _ _ same => by cases same) (plain_keeps patience readings _ written)
  | asks txn_id patience readings here http readable fresh prepared written =>
    exact asks_sound sound here readable fresh (asks_keeps _ _ patience readings readable written)
  | web_socket here ws => exact set_relay_sound sound (refuse_fair (sound.relays _ _ here) _)
  | command choice here => exact command_sound sound choice here
  | fails error here =>
    have fits := sound.actors _ (List.mem_of_getElem? here)
    exact set_sound sound here sound.entries ⟨fits.keeps.2.2 error trivial,fits.request⟩
  | pushed here call actor ended =>
    rename_i r i n relay txn_id payload thread outcome
    refine set_relay_sound sound (goes_on_fair (sound.relays _ _ here) ?_)
    have bound : Bound setup d.roles r i (.pushing txn_id) := (sound.relays _ _ here).calls i _ call
    cases outcome with
    | ok value => exact bound
    | error error => trivial
  | own own step =>
    exact ⟨sound.actors,sound.entries,own_fair own step sound.unique.once sound.relays,sound.unique⟩
  | pops here listening queue =>
    rename_i r relay entry rest
    have justified := sound.entries setup.direct_resp_topic entry (by simp [queue])
    have received := set_relay_sound sound (receive_fair (sound.relays _ _ here) sound.unique justified)
    refine ⟨received.actors,fun list other inside => ?_,received.relays,?_⟩
    · by_cases same : list = setup.direct_resp_topic
      · subst same
        simp only [Function.update_self] at inside
        exact sound.entries _ other (by rw [queue]; exact List.mem_cons_of_mem _ inside)
      · simp only [Function.update_of_ne same] at inside
        exact sound.entries list other inside
    · refine ⟨sound.unique.readable,fun r' i' txn payload member => ?_,sound.unique.once⟩
      obtain ⟨other,begun⟩ := sound.unique.began r' i' txn payload member
      exact ⟨other,List.mem_append_right _ begun⟩

theorem reachable_sound {types : List Relays.TransportType} (reach : Reachable setup types d) : Sound setup d := by
  induction reach with
  | refl =>
    refine ⟨fun _ member => absurd member List.not_mem_nil,fun _ _ member => absurd member List.not_mem_nil,?_,?_⟩
    · intro r relay here
      obtain ⟨kind,_,rfl⟩ := List.mem_map.mp (List.mem_of_getElem? here)
      exact ⟨fun _ _ found => (by cases found),fun i handling call => by simp [Relays.idle] at call⟩
    · exact ⟨fun _ _ _ _ member => absurd member List.not_mem_nil,fun _ _ _ _ member => absurd member List.not_mem_nil,
        fun _ _ _ _ _ _ _ member => absurd member List.not_mem_nil⟩
  | tail _ step ih => exact step_sound ih step

/-- The body of a reply is the response. -/
theorem reply_text {content_type : Option ContentType} {response : Bytes} {reply : HttpResponse}
    (replied : HttpRelay.answer (.found (.response_data (response_data setup.mime content_type response))) =
      .ok (some reply)) : response.decode = .ok reply.text := by
  have field : (response_data setup.mime content_type response).getItem "response" = .ok (.str (b64_text response)) := by
    cases content_type <;> rfl
  simp only [HttpRelay.answer,HttpRelay.reply,field,ok_bind,b64_of_json,b64_to_bytes_encode] at replied
  by_cases empty : response = []
  · rw [if_pos empty] at replied
    cases replied
  · rw [if_neg empty] at replied
    cases decoded : response.decode with
    | error error =>
      rw [decoded] at replied
      cases replied
    | ok body =>
      rw [decoded] at replied
      cases replied
      rfl

/-- In every run, whatever order the commands of all programs have and whichever of them fail, a call
    that gets a response has asked for it: an instance made it of the answer of a session to the
    message of that call, which is the only one with its transaction. A reply that the call makes of
    it has the text of that answer. -/
theorem answers_own {types : List Relays.TransportType} (reach : Reachable setup types d) {r i : Nat}
    {relay : Relays.Relay} {data : Json} (here : d.relays[r]? = some relay)
    (answered : relay.calls[i]? = some (.answered (some (.response_data data)))) :
    ∃ txn_id payload self content_type response, .asks r i txn_id payload ∈ d.roles ∧
      (∀ r' i' payload', .asks r' i' txn_id payload' ∈ d.roles → r' = r ∧ i' = i ∧ payload' = payload) ∧
      .serves self ∈ d.roles ∧ AnswerOf self txn_id payload (.direct_response txn_id content_type response) ∧
      data = response_data setup.mime content_type response ∧
      ∀ reply, HttpRelay.answer (.found (.response_data data)) = .ok (some reply) → response.decode = .ok reply.text := by
  have sound := reachable_sound reach
  obtain ⟨txn_id,payload,asks,content_type,response,⟨_,self,serves,answer⟩,rfl⟩ :=
    (sound.relays r relay here).calls i _ answered
  refine ⟨txn_id,payload,self,content_type,response,asks,fun r' i' payload' asks' => ?_,serves,answer,rfl,
    fun reply replied => reply_text replied⟩
  obtain ⟨rfl,rfl,rfl⟩ := sound.unique.once _ _ _ _ _ _ _ asks asks'
  exact ⟨rfl,rfl,rfl⟩

end

/-! ### A request and its response -/

def setup_a : Setup where
  limits := limits_a
  floats := floats_a
  codec := codec_a
  mime := mime_types
  inbound_topic := "t"
  direct_resp_topic := "d"
  deep := by decide
  typed := mime_types_readable

/-- A packed message for the key `k` that asks for a direct response. -/
def asking_a : Bytes :=
  (text ("\x7b\"protected\":\"" ++ protected_k ++ "\",\"~transport\":\x7b\"return_route\":\"all\"\x7d\x7d")).map UInt8.ofNat

theorem prepare_a : prepare setup_a.json ⟨[], asking_a, .ok []⟩ = .ok (asking_a, true) := by decide +kernel

theorem recip_key_a : recip_key_of setup_a.json.loads asking_a = .ok "k" := by decide +kernel

def request_a : Entry := .inbound asking_a (some (text "x"))

theorem entry_a : entry_of setup_a.json (relay_record asking_a (some (text "x")) "http") = .ok request_a := by
  refine entry_of_relay_record (python_json_faithful floats_a codec_a (relay_writable (by decide) asking_a ?_ "http"))
  intro id same
  cases same
  exact readable_text "x"

/-- A call and one push. -/
def push_a : Redis Unit := do
  process_recip_key 1 0 "k"
  match ← (redis (.rpush (topic_list "t" "k") request_a)).attempt with
  | .ok _ => return
  | .error .RedisError => .waiting
  | .error .RedisClusterException => .waiting
  | .error error => .raise error

theorem send_a : (setup_a.handler 0).send asking_a request_a [0] = push_a := by
  have key : recip_key_of (setup_a.handler 0).json.loads asking_a = .ok "k" := recip_key_a
  rw [Handler.send,process_payload_recip_key,key,push_a]
  simp only [bind_bind]
  refine congrArg (process_recip_key 1 0 "k" >>= ·) (funext fun _ => ?_)
  refine congrArg (Program.command (Command.rpush (topic_list "t" "k") request_a)) (funext fun reply => ?_)
  rcases reply with error | reply
  · cases error <;> rfl
  · rfl

/-- An instance whose sessions respond with the bytes of an empty object. -/
def responding_a : RedisInboundTransport := ⟨uid_a, "t", "d", false, fun _ => .ok (some (.bytes [123, 125])), fun _ => 0⟩

/-- Redis after the registration, the push and the pass. -/
def registered_a : Store := ((register uid_a).leaves exec .empty).1
def pushed_a : Store := (push_a.leaves exec registered_a).1
def answered_a : Store := (responding_a.poll.leaves exec pushed_a).1

theorem registers_a : ∃ log, Runs exec (register uid_a) .empty log (.ok ()) registered_a := leaves_runs rfl

theorem pushes_a : ∃ log, Runs exec ((setup_a.handler 0).send asking_a request_a [0]) registered_a log (.ok ()) pushed_a := by
  rw [send_a]
  exact leaves_runs rfl

theorem polls_a : ∃ log, Runs exec responding_a.poll pushed_a log (.ok ()) answered_a := leaves_runs rfl

theorem topic_a : answered_a.lists "d" = [.direct_response (text "x") (some .DIDCOMM_V0_MIME_TYPE) [123, 125]] := by rfl

/-- The relay with the waiting call, and after it has popped the response. -/
def waiting_a : Relays.Relay := ((Relays.idle .http).begin (text "x")).goes_on 0 (.waiting (text "x"))

def data_a : Json := response_data mime_types (some .DIDCOMM_V0_MIME_TYPE) [123, 125]

theorem received_a :
    waiting_a.receive (element setup_a (.direct_response (text "x") (some .DIDCOMM_V0_MIME_TYPE) [123, 125])) =
    waiting_a.store (text "x") (.response_data data_a) := by
  rw [Relays.Relay.receive,element_response setup_a _ _ (readable_text "x")]
  rfl

theorem logged_a :
    Relays.received 0 (element setup_a (.direct_response (text "x") (some .DIDCOMM_V0_MIME_TYPE) [123, 125])) =
    [.popped 0 (text "x") data_a] := by
  rw [Relays.received,element_response setup_a _ _ (readable_text "x")]
  rfl

/-- An instance registers, a call asks, the instance answers, and the call gets the response. -/
theorem reaches_a : ∃ d, Reachable setup_a [.http] d ∧ .popped 0 (text "x") data_a ∈ d.log ∧
    ∃ relay, d.relays[0]? = some relay ∧ relay.calls[0]? = some (.answered (some (.response_data data_a))) := by
  obtain ⟨_,registers⟩ := registers_a
  obtain ⟨_,pushes⟩ := pushes_a
  obtain ⟨_,polls⟩ := polls_a
  have first : Reachable setup_a [.http] _ := .single (.bystands (.registers uid_a))
  have registered := first.trans (runs_alone registers _ 0 .other [] rfl rfl)
  have asking := registered.tail (@Step.asks setup_a _ 0 (Relays.idle .http) ⟨[], asking_a, .ok []⟩ asking_a request_a
    (text "x") 0 [0] rfl rfl (readable_text "x") (fun _ => List.not_mem_nil) prepare_a entry_a)
  have asked := asking.trans (runs_alone pushes _ 1 (.asks 0 0 (text "x") asking_a) [] rfl rfl)
  have waiting := asked.tail (@Step.pushed setup_a _ 0 0 1 _ (text "x") asking_a _ (.ok ()) rfl rfl rfl rfl)
  have passing := waiting.tail (.serves responding_a)
  have answered := passing.trans (runs_alone polls _ 2 (.serves responding_a) [] rfl rfl)
  have responded := answered.tail (@Step.pops setup_a _ 0 waiting_a _ _ rfl rfl topic_a)
  rw [received_a,logged_a] at responded
  have stored : (waiting_a.store (text "x") (.response_data data_a)).direct_response_txn_request_map (text "x") =
      some (.response_data data_a) := by simp [Relays.Relay.store]
  have looked := responded.tail
    (@Step.own setup_a _ _ (.look 0 0) trivial (@Relays.Step.look _ 0 0 _ (text "x") _ rfl rfl rfl stored))
  exact ⟨_,looked,List.mem_cons_self,_,rfl,rfl⟩

/-- The response that a call gets is to its message. -/
theorem answers_own_a : ∃ d, Reachable setup_a [.http] d ∧ ∃ relay, d.relays[0]? = some relay ∧
    relay.calls[0]? = some (.answered (some (.response_data data_a))) ∧
    ∃ txn_id payload content_type response, .asks 0 0 txn_id payload ∈ d.roles ∧
      data_a = response_data setup_a.mime content_type response := by
  obtain ⟨d,reach,_,relay,here,answered⟩ := reaches_a
  obtain ⟨txn_id,payload,_,content_type,response,asks,_,_,_,data,_⟩ := answers_own reach here answered
  exact ⟨d,reach,relay,here,answered,txn_id,payload,content_type,response,asks,data⟩

end AcapyRedis.Correlation
