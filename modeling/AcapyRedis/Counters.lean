import AcapyRedis.Pending

/-!
The pending counters when commands fail. Calls, passes and registrations run
concurrently from an empty Redis, any command may raise without being executed, and
a call or pass may stop anywhere. A writer of a counter writes a count that is not
negative and has seen an owner of the key before (`bookkeeper`); so no counter is ever
negative and only owned keys have counters (`Sound`).
-/
namespace AcapyRedis.Counters
open AcapyRedis.Programs AcapyRedis.Programs.Program AcapyRedis.Python AcapyRedis.RedisStore AcapyRedis.Utils
open AcapyRedis.Threads AcapyRedis.Commands AcapyRedis.Inbound AcapyRedis.Pending

/-! ### What a writer has seen -/

/-- The keys that a call or pass has seen to have an owner. -/
abbrev Seen := RecipKey → Prop

namespace Seen

/-- What it has seen after an event. A counter is only kept for an owned key. -/
def next (g : Seen) : Event Command Command.Reply → Seen
  | ⟨.hset_uid k _, _⟩ => fun l => l = k ∨ g l
  | ⟨.hexists_uid k, true⟩ => fun l => l = k ∨ g l
  | ⟨.hget_pending field, some _⟩ => fun l => counts_for l field = true ∨ g l
  | _ => g

/-- A counter is written, or raised, by a count that is not negative, for a key that
    was seen to have an owner. -/
def may (g : Seen) : Command → Prop
  | .hset_pending field value => 0 ≤ value ∧ ∀ k, counts_for k field = true → g k
  | .hincrby_pending field amount => 0 ≤ amount ∧ ∀ k, counts_for k field = true → g k
  | _ => True

/-- No counter that is read is negative. -/
def answers (_ : Seen) : Event Command Command.Reply → Prop
  | ⟨.hget_pending _, some count⟩ => 0 ≤ count
  | _ => True

theorem next_mono (g : Seen) (event : Event Command Command.Reply) {k : RecipKey} (seen : g k) : g.next event k := by
  obtain ⟨c,reply⟩ := event
  cases c with
  | hset_uid l u => exact .inr seen
  | hexists_uid l => cases reply <;> first | exact seen | exact .inr seen
  | hget_pending field => cases reply <;> first | exact seen | exact .inr seen
  | _ => exact seen

end Seen

def bookkeeper : Discipline Command Command.Reply Seen := ⟨fun _ => False, Seen.next, Seen.may, Seen.answers⟩

/-! ### One command -/

/-- No counter is negative, only owned keys have counters, and what was seen to have an
    owner has one. -/
structure Sound (s : Store) (gs : List Seen) : Prop where
  nonneg : ∀ field count, s.uid_recip_key_pending_msg_count.lookup field = some count → 0 ≤ count
  backed : ∀ k field, counts_for k field = true → field ∈ s.uid_recip_key_pending_msg_count → k ∈ s.recip_key_uid_map
  seen : ∀ g ∈ gs, ∀ k, g k → k ∈ s.recip_key_uid_map

theorem mem_of_lookup {K V : Type} [DecidableEq K] {hash : Hash K V} {field : K} {value : V}
    (found : hash.lookup field = some value) : field ∈ hash := AList.lookup_isSome.mp (by rw [found]; rfl)

section
variable {s : Store} {gs : List Seen} {i : Nat} {g : Seen}

/-- A command that writes no counter and takes no owner away. -/
theorem aside_sound (inv : Sound s gs) {s' : Store} {g' : Seen}
    (counters : s'.uid_recip_key_pending_msg_count = s.uid_recip_key_pending_msg_count)
    (owners : ∀ k, k ∈ s.recip_key_uid_map → k ∈ s'.recip_key_uid_map)
    (new : ∀ k, g' k → k ∈ s'.recip_key_uid_map) : Sound s' (gs.set i g') := by
  constructor
  · rw [counters]
    exact inv.nonneg
  · intro k field counts there
    rw [counters] at there
    exact owners k (inv.backed k field counts there)
  · intro h member k seen
    obtain old | rfl := List.mem_or_eq_of_mem_set member
    · exact owners k (inv.seen h old k seen)
    · exact new k seen

/-- A write of a counter of a key that has an owner. -/
theorem written_sound (inv : Sound s gs) (here : g ∈ gs) {field : String} {value : Int} (least : 0 ≤ value)
    (known : ∀ k, counts_for k field = true → g k) :
    Sound { s with uid_recip_key_pending_msg_count := s.uid_recip_key_pending_msg_count.insert field value }
      (gs.set i g) := by
  constructor
  · intro other count found
    by_cases same : other = field
    · subst same
      rw [AList.lookup_insert,Option.some.injEq] at found
      omega
    · rw [AList.lookup_insert_ne same] at found
      exact inv.nonneg other count found
  · intro k other counts there
    obtain rfl | old := AList.mem_insert _ |>.mp there
    · exact inv.seen g here k (known k counts)
    · exact inv.backed k other counts old
  · intro h member k seen
    obtain old | rfl := List.mem_or_eq_of_mem_set member
    · exact inv.seen h old k seen
    · exact inv.seen h here k seen

theorem erased_sound (inv : Sound s gs) (here : g ∈ gs) (field : String) :
    Sound { s with uid_recip_key_pending_msg_count := s.uid_recip_key_pending_msg_count.erase field }
      (gs.set i g) := by
  constructor
  · intro other count found
    by_cases same : other = field
    · subst same
      rw [AList.lookup_erase] at found
      cases found
    · rw [AList.lookup_erase_ne same] at found
      exact inv.nonneg other count found
  · intro k other counts there
    exact inv.backed k other counts (AList.mem_erase.mp there).2
  · intro h member k seen
    obtain old | rfl := List.mem_or_eq_of_mem_set member
    · exact inv.seen h old k seen
    · exact inv.seen h here k seen

theorem pending_nonneg (inv : Sound s gs) (field : String) : 0 ≤ s.pending field := by
  rw [Store.pending]
  cases found : s.uid_recip_key_pending_msg_count.lookup field with
  | none => simp
  | some count => exact inv.nonneg field count found

theorem answered (inv : Sound s gs) (g : Seen) (c : Command) (choice : Choice) : g.answers ⟨c, (exec c choice s).1⟩ := by
  cases c with
  | hget_pending field =>
    show Seen.answers g ⟨.hget_pending field, s.uid_recip_key_pending_msg_count.lookup field⟩
    cases found : s.uid_recip_key_pending_msg_count.lookup field with
    | none => trivial
    | some count => exact inv.nonneg field count found
  | _ => trivial

/-- A command of a thread that keeps to the discipline. -/
theorem step_sound (inv : Sound s gs) (here : gs[i]? = some g) {c : Command} (choice : Choice) (may : g.may c) :
    Sound (exec c choice s).2 (gs.set i (g.next ⟨c, (exec c choice s).1⟩)) := by
  have member := List.mem_of_getElem? here
  have still : ∀ k, g k → k ∈ s.recip_key_uid_map := inv.seen g member
  cases c with
  | hset_uid k u =>
    refine aside_sound inv rfl (fun l there => (AList.mem_insert _).mpr (.inr there)) (fun l seen => ?_)
    obtain rfl | old := seen
    · exact (AList.mem_insert _).mpr (.inl rfl)
    · exact (AList.mem_insert _).mpr (.inr (still l old))
  | hexists_uid k =>
    refine aside_sound inv rfl (fun _ there => there) ?_
    intro l seen
    simp only [exec] at seen
    cases owner : s.recip_key_uid_map.lookup k with
    | none =>
      rw [owner] at seen
      exact still l seen
    | some u =>
      rw [owner] at seen
      obtain rfl | old := seen
      · exact mem_of_lookup owner
      · exact still l old
  | hget_pending field =>
    refine aside_sound inv rfl (fun _ there => there) ?_
    intro l seen
    simp only [exec] at seen
    cases found : s.uid_recip_key_pending_msg_count.lookup field with
    | none =>
      rw [found] at seen
      exact still l seen
    | some count =>
      rw [found] at seen
      obtain counts | old := seen
      · exact inv.backed l field counts (mem_of_lookup found)
      · exact still l old
  | hset_pending field value => exact written_sound inv member may.1 may.2
  | hdel_pending field => exact erased_sound inv member field
  | hincrby_pending field amount =>
    have before := pending_nonneg inv field
    have more := may.1
    exact written_sound inv member (by omega) may.2
  | _ => exact aside_sound inv rfl (fun _ there => there) still

end

/-! ### Calls -/

/-- A program that keeps to the discipline; what was seen before is still seen after it. -/
def Keeps {α : Type} (p : Redis α) : Prop :=
  ∀ g : Seen, bookkeeper.Follows (fun _ g' => ∀ k, g k → g' k) p g

theorem keeps_bind {α β : Type} {p : Redis α} {rest : α → Redis β} (first : Keeps p)
    (later : ∀ value, Keeps (rest value)) : Keeps (p >>= rest) := by
  intro g
  refine Discipline.follows_bind_rel (fun g (g' : Seen) => ∀ k, g k → g' k) ?_ (first g) (fun value g' _ => later value g')
  exact fun near far k seen => far k (near k seen)

theorem keeps_done {α : Type} (value : α) : Keeps (.done value : Redis α) := fun _ _ seen => seen

/-- The commands that every call or pass may issue. -/
def Free : Command → Prop
  | .hset_pending _ _ => False
  | .hincrby_pending _ _ => False
  | _ => True

/-- A program of such commands. -/
theorem issues_keeps {α : Type} {p : Redis α} (issued : Discipline.Issues Free p) : Keeps p := by
  intro g
  have each : ∀ (g' : Seen) c, (∀ k, g k → g' k) → Free c →
      bookkeeper.may g' c ∧ ∀ reply k, g k → bookkeeper.next g' ⟨c, reply⟩ k := by
    intro g' c before free
    constructor
    · cases c <;> first | exact free.elim | trivial
    · exact fun reply k seen => Seen.next_mono g' _ (before k seen)
  exact issued.keeps each (fun _ seen => seen)

theorem keeps_redis {c : Command} (free : Free c) : Keeps (redis c) := issues_keeps (Discipline.issues_call free)

theorem get_new_valid_uid_keeps (ignored : Option Uid) (patience : Nat) :
    Keeps (get_new_valid_uid ignored patience) := by
  refine issues_keeps ((get_new_valid_uid_issues ignored patience).mono (fun c selects => ?_))
  cases c <;> first | exact selects.elim | trivial

theorem read_list_keeps (u : Uid) : Keeps (get_recip_keys_list_for_uid u) :=
  issues_keeps (Discipline.issues_bind (Discipline.issues_call trivial) (fun _ => trivial))

theorem any_pending_keeps (old : Uid) (ks : List RecipKey) : Keeps (any_pending old ks) := by
  refine issues_keeps ((any_pending_issues old ks).mono (fun c counts => ?_))
  cases c <;> first | exact counts.elim | trivial

theorem counts_for_seen {g : Seen} {k : RecipKey} (u : Uid) (seen : g k) :
    ∀ l, counts_for l (uid_recip_key u k) = true → g l := by
  intro l counts
  rw [counts_for_uid_recip_key,decide_eq_true_eq] at counts
  subst counts
  exact seen

/-- A new counter is 0, and the key got its owner before. -/
theorem assign_sees (patience : Nat) (k : RecipKey) (g : Seen) :
    bookkeeper.Follows (fun outcome g' => (∀ l, g l → g' l) ∧ (outcome.isOk → g' k))
      (assign_recip_key_to_new_uid patience k) g := by
  rw [assign_recip_key_to_new_uid,Discipline.follows_bind]
  refine Discipline.follows_mono (get_new_valid_uid_keeps none patience g) (fun outcome g₁ kept => ?_)
  cases outcome with
  | error error => exact ⟨kept, fun ok => absurd ok Bool.false_ne_true⟩
  | ok u =>
    have finish : ∀ g' : Seen, (∀ l, g l → g' l) → g' k →
        bookkeeper.Follows (fun outcome g'' => (∀ l, g l → g'' l) ∧ (outcome.isOk → g'' k))
          (do redis (.hset_pending (uid_recip_key u k) 0); return u : Redis Uid) g' := by
      intro g' still owned
      exact ⟨⟨Int.le_refl 0, counts_for_seen u owned⟩, fun _ _ => ⟨still, fun _ => owned⟩⟩
    refine ⟨trivial, fun _ _ => ⟨trivial, fun ks _ => ?_⟩⟩
    have owned : bookkeeper.next g₁ ⟨.hset_uid k u, ()⟩ k := .inl rfl
    have still : ∀ l, g l → bookkeeper.next g₁ ⟨.hset_uid k u, ()⟩ l := fun l seen => .inr (kept l seen)
    show bookkeeper.Follows _ (if k ∉ (ks.getD []).dedup then _ else _) _
    split
    · exact ⟨trivial, fun _ _ => finish _ still owned⟩
    · exact finish _ still owned

/-- The count that moves to the new uid is one that was read. -/
theorem reassign_keeps (patience : Nat) (old : Uid) (k : RecipKey) :
    Keeps (reassign_recip_key_to_uid patience old k) := by
  refine keeps_bind (get_new_valid_uid_keeps (some old) patience) (fun new => ?_)
  refine keeps_bind (read_list_keeps old) (fun olds => keeps_bind (read_list_keeps new) (fun news => ?_))
  refine keeps_bind (keeps_redis (c := .hset_recip_keys _ _ _) trivial) (fun _ g => ⟨trivial, fun count read => ?_⟩)
  have kept : ∀ l, g l → bookkeeper.next g ⟨.hget_pending (uid_recip_key old k), count⟩ l :=
    fun l seen => Seen.next_mono g _ seen
  refine ⟨trivial, fun _ _ => ⟨trivial, fun _ _ => ⟨trivial, fun _ _ => ?_⟩⟩⟩
  cases count with
  | none => exact fun l seen => .inr (kept l seen)
  | some count => exact ⟨⟨read, counts_for_seen new (.inl rfl)⟩, fun _ _ l seen => .inr (kept l seen)⟩

theorem reassign_all_keeps (patience : Nat) (old : Uid) (key : RecipKey) (ks : List RecipKey) :
    ∀ plugin_uid, Keeps (reassign_all patience old key plugin_uid ks) := by
  induction ks with
  | nil => exact fun plugin_uid => keeps_done plugin_uid
  | cons k rest ih => exact fun _ => keeps_bind (reassign_keeps patience old k) (fun _ => ih _)

theorem evacuate_keeps (patience : Nat) (old : Uid) (key : RecipKey) : Keeps (evacuate patience old key) := by
  refine keeps_bind (read_list_keeps old) (fun ks => keeps_bind (any_pending_keeps old ks) (fun pending => ?_))
  cases pending with
  | false => exact keeps_done old
  | true =>
    refine keeps_bind (reassign_all_keeps patience old key ks old) (fun u => ?_)
    refine keeps_bind (read_list_keeps old) (fun left => ?_)
    show Keeps (if left.isEmpty then _ else _)
    split
    · exact keeps_bind (keeps_redis (c := .hdel_recip_keys old) trivial) (fun _ => keeps_done u)
    · exact keeps_done u

theorem find_or_assign_sees (patience : Nat) (k : RecipKey) (g : Seen) :
    bookkeeper.Follows (fun outcome g' => outcome.isOk → g' k) (find_or_assign patience k) g := by
  refine ⟨trivial, ?_⟩
  intro present _
  cases present with
  | true =>
    refine ⟨trivial, ?_⟩
    intro owner _
    cases owner with
    | some u => exact fun _ => .inl rfl
    | none => exact fun ok => absurd ok Bool.false_ne_true
  | false => exact Discipline.follows_mono (assign_sees patience k g) (fun _ _ seen => seen.2)

theorem process_recip_key_follows (patience : Nat) (now : Int) (k : RecipKey) (g : Seen) :
    bookkeeper.Follows (fun _ _ => True) (process_recip_key patience now k) g := by
  rw [process_recip_key,Discipline.follows_bind]
  refine Discipline.follows_mono (find_or_assign_sees patience k g) (fun outcome g₁ found => ?_)
  cases outcome with
  | error error => trivial
  | ok u =>
    have count : ∀ (v : Uid) (g₂ : Seen), g₂ k →
        bookkeeper.Follows (fun _ _ => True) (redis (.hincrby_pending (uid_recip_key v k) 1)) g₂ :=
      fun v g₂ owned => ⟨⟨by decide, counts_for_seen v owned⟩, fun _ _ => trivial⟩
    refine ⟨trivial, fun access _ => ?_⟩
    show bookkeeper.Follows _ (if stale_uid_check now access then _ else _) g₁
    split
    · rw [Discipline.follows_bind]
      refine Discipline.follows_mono (evacuate_keeps patience u k g₁) (fun outcome g₂ kept => ?_)
      cases outcome with
      | error error => trivial
      | ok v => exact count v g₂ (kept k (found rfl))
    · exact count u g₁ (found rfl)

theorem process_payload_follows (json_loads : Bytes ⊕ Text → Except PyError Json) (patience : Nat) (now : Int)
    (payload : Bytes) (topic : String) (g : Seen) :
    bookkeeper.Follows (fun _ _ => True) (process_payload_recip_key json_loads patience now payload topic) g := by
  rw [process_payload_recip_key]
  cases recip_key_of json_loads payload with
  | error error => trivial
  | ok k =>
    rw [Discipline.follows_bind]
    refine Discipline.follows_mono (process_recip_key_follows patience now k g) (fun outcome _ _ => ?_)
    cases outcome <;> trivial

/-! ### Passes

A pass catches the errors of some commands, so it goes on after one that was not executed. -/

/-- A program that keeps to the discipline whatever commands raise. -/
def Survives {α : Type} (p : Redis α) : Prop :=
  ∀ g : Seen, bookkeeper.Endures (fun _ => True) (fun _ _ => True) p g

theorem survives_bind {α β : Type} {p : Redis α} {rest : α → Redis β} (first : Survives p)
    (later : ∀ value, Survives (rest value)) : Survives (p >>= rest) := by
  intro g
  refine Discipline.endures_bind (fun _ _ => True) ?_ (fun value g' _ => later value g')
  exact Discipline.endures_mono (first g) (fun outcome _ _ => by cases outcome <;> trivial)

theorem survives_done {α : Type} (value : α) : Survives (.done value : Redis α) := fun _ => trivial

theorem survives_redis {c : Command} (free : Free c) : Survives (redis c) := by
  intro g
  refine ⟨?_, fun _ _ => trivial, fun _ _ => trivial⟩
  cases c <;> first | exact free.elim | trivial

theorem pop_message_survives (list : String) (tries : Nat) : Survives (pop_message list tries) := by
  induction tries with
  | zero => exact fun _ => trivial
  | succ tries ih =>
    intro g
    refine ⟨trivial, fun reply _ => trivial, fun error _ => ?_⟩
    cases error <;> first | exact ih g | trivial

theorem receive_survives (self : RedisInboundTransport) (payload : Bytes) (txn_id : Option Text) :
    Survives (self.receive payload txn_id) := by
  refine RedisInboundTransport.receive_cases ?_ ?_ ?_ payload txn_id
  · exact survives_done ()
  · exact fun _ _ => trivial
  · intro message g
    refine ⟨trivial, fun reply _ => trivial, fun error _ => ?_⟩
    cases error <;> trivial

/-- A pass writes one less than a count that it read as at least 1. -/
theorem poll_key_survives (self : RedisInboundTransport) (k : RecipKey) : Survives (self.poll_key k) := by
  refine survives_bind (pop_message_survives _ 6) (fun msg => ?_)
  rcases msg with _ | ⟨payload,txn_id⟩ | ⟨_,_,_⟩ | error
  · exact survives_done ()
  · refine survives_bind (survives_redis (c := .hset_last_access _ _) trivial) (fun _ g => ?_)
    refine ⟨trivial, fun count _ => ?_, fun _ _ => trivial⟩
    cases count with
    | none => exact receive_survives self payload txn_id _
    | some count =>
      show bookkeeper.Endures _ _ (if 1 ≤ count then _ else _) _
      split
      · next least =>
        have known : ∀ l, counts_for l (uid_recip_key self.plugin_uid k) = true →
            bookkeeper.next g ⟨.hget_pending (uid_recip_key self.plugin_uid k), some count⟩ l := fun l counts => .inl counts
        exact ⟨⟨by omega,known⟩, fun _ _ => receive_survives self payload txn_id _, fun _ _ => trivial⟩
      · exact receive_survives self payload txn_id _
  · exact survives_done ()
  · intro g
    cases error <;> trivial

theorem poll_keys_survives (self : RedisInboundTransport) (ks : List RecipKey) : Survives (self.poll_keys ks) := by
  induction ks with
  | nil => exact survives_done ()
  | cons k rest ih => exact survives_bind (poll_key_survives self k) (fun _ => ih)

theorem poll_survives (self : RedisInboundTransport) : Survives self.poll := by
  intro g
  refine ⟨trivial, fun listed _ => ?_, fun error _ => ?_⟩
  · cases listed with
    | none => exact survives_done () _
    | some ks => exact poll_keys_survives self ks _
  · cases error <;> trivial

/-! ### Whole runs -/

/-- What runs concurrently: a call, the push of a record by a caller, one pass of an
    instance or the registration of an instance. -/
inductive IsClient (json_loads : Bytes ⊕ Text → Except PyError Json) : Redis Unit → Prop
  | calls (patience : Nat) (now : Int) (payload : Bytes) (topic : String) :
      IsClient json_loads (process_payload_recip_key json_loads patience now payload topic >>= fun _ => return ())
  | pushes (list : String) (entry : Entry) : IsClient json_loads (redis (.rpush list entry))
  | polls (self : RedisInboundTransport) : IsClient json_loads self.poll
  | registers (uid : Uid) : IsClient json_loads (register uid)

theorem client_survives {json_loads : Bytes ⊕ Text → Except PyError Json} {p : Redis Unit}
    (client : IsClient json_loads p) : Survives p := by
  cases client with
  | calls patience now payload topic =>
    refine survives_bind (fun g => ?_) (fun _ => survives_done ())
    exact Discipline.endures_of_escapes (process_payload_escapes json_loads patience now payload topic)
      (fun _ _ _ => trivial) (process_payload_follows json_loads patience now payload topic g)
  | pushes list entry => exact survives_redis trivial
  | polls self => exact poll_survives self
  | registers uid => exact survives_bind (survives_redis trivial) (fun _ => survives_redis trivial)

/-- Any number of clients on one Redis that was empty, whose commands may fail. -/
def Running (json_loads : Bytes ⊕ Text → Except PyError Json) (pool : Actors) : Prop :=
  Guarded exec (IsClient json_loads) unguarded (fun _ => True) Store.empty pool

theorem begins_sound : Sound Store.empty [] := by
  refine ⟨?_, ?_, ?_⟩
  · intro field count found
    cases found
  · intro k field _ there
    exact absurd there (AList.notMem_empty field)
  · intro g member
    cases member

theorem spawns_sound {s : Store} {gs : List Seen} (inv : Sound s gs) : Sound s (gs ++ [bookkeeper.first]) := by
  refine ⟨inv.nonneg, inv.backed, fun g member k seen => ?_⟩
  obtain old | new := List.mem_append.mp member
  · exact inv.seen g old k seen
  · rw [List.mem_singleton.mp new] at seen
    exact seen.elim

theorem running_sound {json_loads : Bytes ⊕ Text → Except PyError Json} {pool : Actors}
    (reach : Running json_loads pool) : Sound pool.store (bookkeeper.ghosts pool) := by
  refine (Discipline.guarded_invariant bookkeeper (fun _ _ => True) Sound begins_sound ?_ ?_ ?_ ?_ reach).1
  · exact fun _ _ => spawns_sound
  · exact fun p client => client_survives client _
  · exact fun s gs i g c choice inv _ _ => answered inv g c choice
  · exact fun pool i g c choice inv here may _ => step_sound inv here choice may

/-- No counter is ever negative, whatever the order of the commands is and whichever of
    them fail. -/
theorem counters_nonneg {json_loads : Bytes ⊕ Text → Except PyError Json} {pool : Actors}
    (reach : Running json_loads pool) (field : String) (count : Int)
    (found : pool.store.uid_recip_key_pending_msg_count.lookup field = some count) : 0 ≤ count :=
  (running_sound reach).nonneg field count found

/-- An instance registers, a message is counted for it, pushed, popped and counted off. -/
def one_counted : List ActorMove :=
  [.start (register uid_a), .start (process_payload_recip_key loads_two 1 0 (packed protected_k) "t" >>= fun _ => return ()),
    .start (redis (.rpush (topic_list "t" "k") (.inbound [] none))), .start instance_a.poll] ++
    steps 0 2 ++ steps 1 14 ++ steps 2 1 ++ steps 3 5

theorem one_counted_clients : ∀ p ∈ started one_counted, IsClient loads_two p := by
  intro p member
  simp only [one_counted,started,List.cons_append,List.nil_append,steps,List.replicate,
    List.mem_cons,List.not_mem_nil,or_false] at member
  rcases member with rfl | rfl | rfl | rfl
  · exact .registers uid_a
  · exact .calls 1 0 _ "t"
  · exact .pushes _ _
  · exact .polls instance_a

theorem counters_nonneg_counted_off : ∃ pool : Actors, Running loads_two pool ∧
    pool.store.uid_recip_key_pending_msg_count.lookup (uid_recip_key uid_a "k") = some 0 ∧ (0 : Int) ≤ 0 := by
  have ran : ((⟨.empty, []⟩ : Actors).guardedMoves exec (fun _ _ _ => true) one_counted).any (fun pool =>
      decide (pool.store.uid_recip_key_pending_msg_count.lookup (uid_recip_key uid_a "k") = some 0)) = true := by decide
  obtain ⟨pool,reach,tested⟩ := guarded_of_test (fun _ _ _ _ => trivial) one_counted _ ran one_counted_clients
  have zero := of_decide_eq_true tested
  exact ⟨pool, reach, zero, counters_nonneg reach _ 0 zero⟩

end AcapyRedis.Counters
