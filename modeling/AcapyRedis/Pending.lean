import AcapyRedis.Sums
import AcapyRedis.Commands
import AcapyRedis.Inbound

/-!
The pending counters under concurrency. For every key a producer or an instance in
progress has an offset (`Account.offset`): what it did to the list of the key minus
what it did to the counters of the key. The sum of the counters and of the offsets is
always the length of the list (`step_balanced`), when every write of a counter finds
the value that its writer knows; a finished call or pass has no offset left.
-/
namespace AcapyRedis.Pending
open AcapyRedis.Programs AcapyRedis.Programs.Program AcapyRedis.Python AcapyRedis.RedisStore AcapyRedis.Utils
open AcapyRedis.Threads AcapyRedis.Commands AcapyRedis.Inbound AcapyRedis.Sums

/-! ### The counters of a key -/

/-- Whether a field is a uid, an underscore and the key. -/
def counts_for (k : RecipKey) (field : String) : Bool := field.toList.drop 36 == '_' :: k.toList

theorem counts_for_iff {k : RecipKey} {field : String} : counts_for k field = true ↔ ∃ u, field = uid_recip_key u k := by
  rw [counts_for,beq_iff_eq]
  constructor
  · intro ending
    have long : 36 ≤ field.toList.length := by
      by_contra short
      rw [List.drop_eq_nil_of_le (by omega)] at ending
      cases ending
    refine ⟨⟨String.ofList (field.toList.take 36), by simp [long]⟩, ?_⟩
    apply String.toList_inj.mp
    simp only [uid_recip_key,String.toList_append,String.toList_ofList]
    rw [List.append_assoc]
    show _ = _ ++ ('_' :: k.toList)
    rw [← ending,List.take_append_drop]
  · rintro ⟨u,rfl⟩
    have size : u.text.toList.length = 36 := by rw [String.length_toList]; exact u.size
    simp only [uid_recip_key,String.toList_append,List.append_assoc]
    rw [← size,List.drop_left]
    rfl

theorem counts_for_uid_recip_key (k l : RecipKey) (u : Uid) : counts_for k (uid_recip_key u l) = decide (k = l) := by
  rw [Bool.eq_iff_iff,counts_for_iff,decide_eq_true_eq]
  constructor
  · rintro ⟨v,same⟩
    exact (uid_recip_key_inj.mp same).2.symm
  · rintro rfl
    exact ⟨u,rfl⟩

/-- The sum over all uids of the counters of a key. -/
def pending_sum (s : Store) (k : RecipKey) : Int := total (counts_for k) s.uid_recip_key_pending_msg_count

/-! ### Accounts -/

/-- The offset of a call or pass for every key, the value that it last read or wrote of
    every counter, 0 for the others, and whether it has popped a message and not yet
    read the counter for it. -/
structure Account where
  offset : RecipKey → Int
  known : String → Int
  popped : Bool

namespace Account

def next (topic : String) (g : Account) : Event Command Command.Reply → Account
  | ⟨.rpush list _, _⟩ => { g with offset := fun k => g.offset k + if list = topic_list topic k then 1 else 0 }
  | ⟨.blpop list, some _⟩ =>
    { g with offset := fun k => g.offset k - if list = topic_list topic k then 1 else 0, popped := true }
  | ⟨.hget_pending field, reply⟩ =>
    { g with known := Function.update g.known field (reply.getD 0), popped := false }
  | ⟨.hset_pending field value, _⟩ =>
    { g with
      offset := fun k => g.offset k - if counts_for k field then value - g.known field else 0
      known := Function.update g.known field value }
  | ⟨.hdel_pending field, _⟩ =>
    { g with
      offset := fun k => g.offset k + if counts_for k field then g.known field else 0
      known := Function.update g.known field 0 }
  | ⟨.hincrby_pending field amount, _⟩ =>
    { g with offset := fun k => g.offset k - if counts_for k field then amount else 0 }
  | _ => g

/-- Only well-formed messages without a direct-response request are pushed. -/
def may (_ : Account) : Command → Prop
  | .rpush _ entry => ∃ payload, entry = .inbound payload none
  | _ => True

/-- A pop of a list of the topic gives a well-formed message, and the counter that is
    read for a popped message is positive. -/
def answers (topic : String) (g : Account) : Event Command Command.Reply → Prop
  | ⟨.blpop list, reply⟩ => ∀ k, list = topic_list topic k → ∀ entry, reply = some entry →
      ∃ payload, entry = .inbound payload none
  | ⟨.hget_pending _, reply⟩ => g.popped = true → ∃ count, reply = some count ∧ 1 ≤ count
  | _ => True

/-- A write or deletion of a counter finds the value that the writer knows of it, and
    the counter that is read for a popped message is positive. -/
def up_to_date (g : Account) (s : Store) : Command → Prop
  | .hset_pending field _ => s.pending field = g.known field
  | .hdel_pending field => s.pending field = g.known field
  | .hget_pending field => g.popped = true → 1 ≤ s.pending field
  | _ => True

/-- The check of `up_to_date`. -/
def checks (g : Account) (s : Store) : Command → Bool
  | .hset_pending field _ => s.pending field == g.known field
  | .hdel_pending field => s.pending field == g.known field
  | .hget_pending field => !g.popped || decide (1 ≤ s.pending field)
  | _ => true

theorem checks_sound {g : Account} {s : Store} {c : Command} (passed : g.checks s c = true) : g.up_to_date s c := by
  cases c with
  | hset_pending field value => exact beq_iff_eq.mp passed
  | hdel_pending field => exact beq_iff_eq.mp passed
  | hget_pending field =>
    intro popped
    simpa [checks,popped] using passed
  | _ => trivial

end Account

/-- A call or pass begins without offsets and without knowing a counter. -/
def accountant (topic : String) : Discipline Command Command.Reply Account :=
  ⟨⟨fun _ => 0, fun _ => 0, false⟩, Account.next topic, Account.may, Account.answers topic⟩

/-! ### One command -/

def offsets (gs : List Account) (k : RecipKey) : Int := (gs.map (fun g => g.offset k)).sum

/-- The counters and the offsets of a key add up to the length of its list, which holds
    well-formed messages. -/
structure Balanced (topic : String) (s : Store) (gs : List Account) : Prop where
  balance : ∀ k, pending_sum s k + offsets gs k = (s.lists (topic_list topic k)).length
  records : ∀ k, ∀ entry ∈ s.lists (topic_list topic k), ∃ payload, entry = .inbound payload none

section
variable {topic : String} {s : Store} {gs : List Account} {i : Nat} {g : Account}

theorem offsets_set (g' : Account) (here : gs[i]? = some g) (k : RecipKey) :
    offsets (gs.set i g') k = offsets gs k - g.offset k + g'.offset k :=
  sum_map_set (fun g : Account => g.offset k) g' here

/-- A command that writes no list of messages. -/
theorem counted_balanced (inv : Balanced topic s gs) (here : gs[i]? = some g) {s' : Store} {g' : Account}
    (lists : s'.lists = s.lists)
    (moves : ∀ k, pending_sum s' k + g'.offset k = pending_sum s k + g.offset k) :
    Balanced topic s' (gs.set i g') := by
  refine ⟨?_, by rw [lists]; exact inv.records⟩
  intro k
  have before := inv.balance k
  have move := moves k
  rw [offsets_set g' here,lists]
  omega

theorem pushed_balanced (inv : Balanced topic s gs) (here : gs[i]? = some g) (list : String) (payload : Bytes) :
    Balanced topic { s with lists := Function.update s.lists list (s.lists list ++ [.inbound payload none]) }
      (gs.set i (g.next topic ⟨.rpush list (.inbound payload none), ()⟩)) := by
  constructor
  · intro k
    have before := inv.balance k
    rw [offsets_set _ here]
    by_cases same : list = topic_list topic k
    · subst same
      simp only [Account.next,↓reduceIte,Function.update_self,List.length_append,List.length_singleton]
      simp only [pending_sum] at before ⊢
      omega
    · simp only [Account.next,same,↓reduceIte,Function.update_of_ne (Ne.symm same)]
      simp only [pending_sum] at before ⊢
      omega
  · intro k entry member
    by_cases same : list = topic_list topic k
    · subst same
      simp only [Function.update_self] at member
      rcases List.mem_append.mp member with old | new
      · exact inv.records k entry old
      · exact ⟨payload, List.mem_singleton.mp new⟩
    · simp only [Function.update_of_ne (Ne.symm same)] at member
      exact inv.records k entry member

theorem popped_balanced (inv : Balanced topic s gs) (here : gs[i]? = some g) (list : String) :
    Balanced topic { s with lists := Function.update s.lists list (s.lists list).tail }
      (gs.set i (g.next topic ⟨.blpop list, (s.lists list).head?⟩)) := by
  constructor
  · intro k
    have before := inv.balance k
    rw [offsets_set _ here]
    by_cases same : list = topic_list topic k
    · subst same
      simp only [Function.update_self]
      cases queue : s.lists (topic_list topic k) with
      | nil =>
        rw [queue] at before
        simp only [pending_sum,Account.next,List.head?_nil,List.tail_nil] at before ⊢
        omega
      | cons first rest =>
        rw [queue] at before
        simp only [pending_sum,Account.next,List.head?_cons,List.tail_cons,List.length_cons,↓reduceIte] at before ⊢
        omega
    · simp only [Function.update_of_ne (Ne.symm same)]
      cases s.lists list with
      | nil =>
        simp only [pending_sum,Account.next,List.head?_nil] at before ⊢
        omega
      | cons first rest =>
        simp only [pending_sum,Account.next,List.head?_cons,same,↓reduceIte] at before ⊢
        omega
  · intro k entry member
    by_cases same : list = topic_list topic k
    · subst same
      simp only [Function.update_self] at member
      exact inv.records k entry (List.mem_of_mem_tail member)
    · simp only [Function.update_of_ne (Ne.symm same)] at member
      exact inv.records k entry member

/-- A permitted command moves a message or a count between the store and an account. -/
theorem step_balanced (inv : Balanced topic s gs) (here : gs[i]? = some g) {c : Command} (choice : Choice)
    (may : g.may c) (fresh : g.up_to_date s c) :
    Balanced topic (exec c choice s).2 (gs.set i (g.next topic ⟨c, (exec c choice s).1⟩)) := by
  cases c with
  | rpush list entry =>
    obtain ⟨payload,rfl⟩ := may
    exact pushed_balanced inv here list payload
  | blpop list => exact popped_balanced inv here list
  | hset_pending field value =>
    refine counted_balanced inv here rfl (fun k => ?_)
    have known : (s.uid_recip_key_pending_msg_count.lookup field).getD 0 = g.known field := fresh
    simp only [pending_sum,exec,total_insert,known,Account.next]
    omega
  | hdel_pending field =>
    refine counted_balanced inv here rfl (fun k => ?_)
    have known : (s.uid_recip_key_pending_msg_count.lookup field).getD 0 = g.known field := fresh
    simp only [pending_sum,exec,total_erase,known,Account.next]
    omega
  | hincrby_pending field amount =>
    refine counted_balanced inv here rfl (fun k => ?_)
    simp only [pending_sum,exec,total_insert,Store.pending,Account.next]
    split <;> omega
  | _ => exact counted_balanced inv here rfl (fun _ => rfl)

end

/-! ### Producers -/

section
variable {topic : String}

/-- A program that ends with the offsets that it began with, also when it raises. -/
def Balances {α : Type} (topic : String) (p : Redis α) : Prop :=
  ∀ g, g.popped = false →
    (accountant topic).Follows (fun _ g' => g'.popped = false ∧ g'.offset = g.offset) p g

/-- A program that leaves the account as it is. -/
def Idle {α : Type} (topic : String) (p : Redis α) : Prop := ∀ g, (accountant topic).Follows (fun _ g' => g' = g) p g

theorem Idle.balances {α : Type} {p : Redis α} (idle : Idle topic p) : Balances topic p :=
  fun g waiting => Discipline.follows_mono (idle g) (fun _ _ same => by subst same; exact ⟨waiting,rfl⟩)

theorem balances_bind {α β : Type} {p : Redis α} {rest : α → Redis β} (first : Balances topic p)
    (later : ∀ value, Balances topic (rest value)) : Balances topic (p >>= rest) := by
  intro g waiting
  refine Discipline.follows_bind_rel (fun g (g' : Account) => g'.popped = false ∧ g'.offset = g.offset) ?_
    (first g waiting) ?_
  · exact fun near far => ⟨far.1, far.2.trans near.2⟩
  · exact fun value g' near => later value g' near.1

theorem idle_done {α : Type} (value : α) : Idle topic (.done value : Redis α) := fun _ => rfl

/-- The commands that move neither a message nor a count. -/
def Aside : Command → Prop
  | .hget_pending _ => False
  | .hset_pending _ _ => False
  | .hdel_pending _ => False
  | .hincrby_pending _ _ => False
  | .rpush _ _ => False
  | .blpop _ => False
  | _ => True

theorem aside_next {c : Command} (aside : Aside c) (g : Account) :
    (accountant topic).may g c ∧ ∀ reply, (accountant topic).next g ⟨c, reply⟩ = g := by
  cases c <;> first | exact aside.elim | exact ⟨trivial, fun _ => rfl⟩

/-- A program of such commands. -/
theorem issues_idle {α : Type} {p : Redis α} (issued : Discipline.Issues Aside p) : Idle topic p := by
  intro g
  refine Discipline.Issues.keeps (fun g' c same aside => ?_) issued rfl
  subst same
  exact aside_next aside g'

theorem idle_redis {c : Command} (aside : Aside c) : Idle topic (redis c) :=
  issues_idle (Discipline.issues_call aside)

theorem get_new_valid_uid_idle (ignored : Option Uid) (patience : Nat) :
    Idle topic (get_new_valid_uid ignored patience) := by
  refine issues_idle ((get_new_valid_uid_issues ignored patience).mono (fun c selects => ?_))
  cases c <;> first | exact selects.elim | trivial

theorem read_list_idle (u : Uid) : Idle topic (get_recip_keys_list_for_uid u) :=
  issues_idle (Discipline.issues_bind (Discipline.issues_call trivial) (fun _ => trivial))

/-- Setting a new counter to 0 is neutral when the call knows nothing else of it. -/
theorem assign_balances (patience : Nat) (k : RecipKey) (g : Account) (waiting : g.popped = false)
    (unread : g.known = fun _ => 0) :
    (accountant topic).Follows (fun _ g' => g'.popped = false ∧ g'.offset = g.offset)
      (assign_recip_key_to_new_uid patience k) g := by
  rw [assign_recip_key_to_new_uid,Discipline.follows_bind]
  refine Discipline.follows_mono (get_new_valid_uid_idle none patience g) (fun outcome g' same => ?_)
  subst same
  cases outcome with
  | error error => exact ⟨waiting,rfl⟩
  | ok u =>
    have finish : (accountant topic).Follows (fun _ g'' => g''.popped = false ∧ g''.offset = g'.offset)
        (do redis (.hset_pending (uid_recip_key u k) 0); return u : Redis Uid) g' := by
      refine ⟨trivial, fun _ _ => ⟨waiting, ?_⟩⟩
      simp [accountant,Account.next,unread]
    refine ⟨trivial, fun _ _ => ⟨trivial, fun ks _ => ?_⟩⟩
    show (accountant topic).Follows _ (if k ∉ (ks.getD []).dedup then _ else _) g'
    split
    · exact ⟨trivial, fun _ _ => finish⟩
    · exact finish

/-- The count that a call deletes for the old uid it adds for the new one. -/
theorem reassign_balances (patience : Nat) (old : Uid) (k : RecipKey) :
    Balances topic (reassign_recip_key_to_uid patience old k) := by
  refine balances_bind (get_new_valid_uid_idle (some old) patience).balances (fun new => ?_)
  refine balances_bind (read_list_idle old).balances (fun olds => ?_)
  refine balances_bind (read_list_idle new).balances (fun news => ?_)
  refine balances_bind (idle_redis (c := .hset_recip_keys _ _ _) trivial).balances (fun _ g waiting => ?_)
  refine ⟨trivial, fun count _ => ⟨trivial, fun _ _ => ⟨trivial, fun _ _ => ⟨trivial, fun _ _ => ?_⟩⟩⟩⟩
  cases count with
  | none =>
    refine ⟨rfl, funext fun l => ?_⟩
    simp [accountant,Account.next]
  | some count =>
    refine ⟨trivial, fun _ _ => ⟨rfl, funext fun l => ?_⟩⟩
    simp only [accountant,Account.next,Function.update_self,Option.getD_some,counts_for_uid_recip_key]
    omega

theorem counts_next {c : Command} (counts : Counts c) (g : Account) :
    (accountant topic).may g c ∧ ∀ reply, ((accountant topic).next g ⟨c, reply⟩).popped = false ∧
      ((accountant topic).next g ⟨c, reply⟩).offset = g.offset := by
  cases c with
  | hget_pending field => exact ⟨trivial, fun _ => ⟨rfl,rfl⟩⟩
  | _ => exact counts.elim

theorem any_pending_balances (old : Uid) (ks : List RecipKey) : Balances topic (any_pending old ks) := by
  intro g waiting
  refine (any_pending_issues old ks).keeps (fun g' c kept counts => ?_) ⟨waiting,rfl⟩
  obtain ⟨may,reads⟩ := counts_next counts g'
  exact ⟨may, fun reply => ⟨(reads reply).1, (reads reply).2.trans kept.2⟩⟩

theorem reassign_all_balances (patience : Nat) (old : Uid) (key : RecipKey) (ks : List RecipKey) :
    ∀ plugin_uid, Balances topic (reassign_all patience old key plugin_uid ks) := by
  induction ks with
  | nil => exact fun plugin_uid => (idle_done plugin_uid).balances
  | cons k rest ih => exact fun _ => balances_bind (reassign_balances patience old k) (fun _ => ih _)

theorem evacuate_balances (patience : Nat) (old : Uid) (key : RecipKey) :
    Balances topic (evacuate patience old key) := by
  refine balances_bind (read_list_idle old).balances (fun ks => ?_)
  refine balances_bind (any_pending_balances old ks) (fun pending => ?_)
  cases pending with
  | false => exact (idle_done old).balances
  | true =>
    refine balances_bind (reassign_all_balances patience old key ks old) (fun u => ?_)
    refine balances_bind (read_list_idle old).balances (fun left => ?_)
    show Balances topic (if left.isEmpty then _ else _)
    split
    · exact balances_bind (idle_redis (c := .hdel_recip_keys old) trivial).balances (fun _ => (idle_done u).balances)
    · exact (idle_done u).balances

theorem find_or_assign_balances (patience : Nat) (k : RecipKey) (g : Account) (waiting : g.popped = false)
    (unread : g.known = fun _ => 0) :
    (accountant topic).Follows (fun _ g' => g'.popped = false ∧ g'.offset = g.offset) (find_or_assign patience k) g := by
  refine ⟨trivial, ?_⟩
  intro present _
  cases present with
  | true =>
    refine ⟨trivial, ?_⟩
    intro owner _
    cases owner with
    | some u => exact ⟨waiting,rfl⟩
    | none => exact ⟨waiting,rfl⟩
  | false => exact assign_balances patience k g waiting unread

/-- A call counts one message of its key that is not yet in the list. -/
theorem process_recip_key_counts (patience : Nat) (now : Int) (k : RecipKey) (g : Account) (waiting : g.popped = false)
    (unread : g.known = fun _ => 0) :
    (accountant topic).Follows (fun outcome g' => g'.popped = false ∧ ∀ l, g'.offset l =
        g.offset l - (match outcome with | .ok _ => if l = k then 1 else 0 | .error _ => 0))
      (process_recip_key patience now k) g := by
  rw [process_recip_key,Discipline.follows_bind]
  refine Discipline.follows_mono (find_or_assign_balances patience k g waiting unread) (fun outcome g₁ found => ?_)
  cases outcome with
  | error error => exact ⟨found.1, fun l => by rw [found.2]; simp⟩
  | ok u =>
    have count : ∀ (v : Uid) (g₂ : Account), g₂.popped = false → g₂.offset = g.offset →
        (accountant topic).Follows (fun outcome g' => g'.popped = false ∧ ∀ l, g'.offset l =
            g.offset l - (match outcome with | .ok _ => if l = k then 1 else 0 | .error _ => 0))
          (redis (.hincrby_pending (uid_recip_key v k) 1)) g₂ := by
      intro v g₂ waiting₂ same
      refine ⟨trivial, fun _ _ => ⟨waiting₂, fun l => ?_⟩⟩
      simp [accountant,Account.next,counts_for_uid_recip_key,same]
    refine ⟨trivial, ?_⟩
    intro access _
    show (accountant topic).Follows _ (if stale_uid_check now access then _ else _) g₁
    split
    · rw [Discipline.follows_bind]
      refine Discipline.follows_mono (evacuate_balances patience u k g₁ found.1) (fun outcome g₂ moved => ?_)
      cases outcome with
      | error error => exact ⟨moved.1, fun l => by rw [moved.2,found.2]; simp⟩
      | ok v => exact count v g₂ moved.1 (moved.2.trans found.2)
    · exact count u g₁ found.1 found.2

theorem produce_settles (json_loads : Bytes ⊕ Text → Except PyError Json) (patience : Nat) (now : Int)
    (payload : Bytes) :
    (accountant topic).Follows (fun _ g => ∀ k, g.offset k = 0) (produce json_loads patience now payload topic)
      (accountant topic).first := by
  rw [produce,process_payload_recip_key]
  cases recip_key_of json_loads payload with
  | error error => exact fun _ => rfl
  | ok key =>
    rw [Discipline.follows_bind,Discipline.follows_bind]
    refine Discipline.follows_mono (process_recip_key_counts patience now key (accountant topic).first rfl rfl)
      (fun outcome g counted => ?_)
    cases outcome with
    | error error => exact fun k => by simpa [accountant] using counted.2 k
    | ok _ =>
      refine ⟨⟨payload,rfl⟩, ?_⟩
      intro _ _ k
      have offset := counted.2 k
      simp only [accountant,Account.next] at offset ⊢
      rw [offset]
      by_cases same : k = key
      · subst same; simp
      · simp [same,topic_list_inj,Ne.symm same]
end

/-! ### Passes -/

section
variable {topic : String}

theorem receive_balances (self : RedisInboundTransport) (payload : Bytes) : Balances topic (self.receive payload none) := by
  intro g waiting
  rw [RedisInboundTransport.receive]
  split <;> exact ⟨waiting,rfl⟩

/-- A pass that pops a message counts it off. -/
theorem poll_key_balances (self : RedisInboundTransport) (under : self.inbound_topic = topic) (k : RecipKey) :
    Balances topic (self.poll_key k) := by
  intro g waiting
  rw [RedisInboundTransport.poll_key,under,pop_message]
  refine ⟨trivial, ?_⟩
  intro popped wellformed
  cases popped with
  | none => exact ⟨waiting,rfl⟩
  | some entry =>
    obtain ⟨payload,rfl⟩ := wellformed k rfl entry rfl
    refine ⟨trivial, fun _ _ => ⟨trivial, fun count positive => ?_⟩⟩
    obtain ⟨count,rfl,least⟩ := positive rfl
    show (accountant topic).Follows _ (if 1 ≤ count then _ else _) _
    rw [if_pos least]
    refine ⟨trivial, ?_⟩
    intro _ _
    refine Discipline.follows_mono (receive_balances self payload _ rfl) (fun _ g' same => ⟨same.1, same.2.trans ?_⟩)
    funext l
    simp only [accountant,Account.next,counts_for_uid_recip_key,topic_list_inj,Function.update_self,
      Option.getD_some,decide_eq_true_eq]
    by_cases own : l = k
    · subst own
      simp only [↓reduceIte]
      omega
    · simp [own,Ne.symm own]

theorem poll_keys_balances (self : RedisInboundTransport) (under : self.inbound_topic = topic) (ks : List RecipKey) :
    Balances topic (self.poll_keys ks) := by
  induction ks with
  | nil => exact (idle_done ()).balances
  | cons k rest ih => exact balances_bind (poll_key_balances self under k) (fun _ => ih)

theorem poll_balances (self : RedisInboundTransport) (under : self.inbound_topic = topic) :
    Balances topic self.poll := by
  refine fun g waiting => ⟨trivial, fun listed _ => ?_⟩
  cases listed with
  | none => exact ⟨waiting,rfl⟩
  | some ks => exact poll_keys_balances self under ks g waiting
end

/-! ### Whole runs -/

/-- What runs concurrently: a producer with one message, one pass of a running instance
    or the registration of an instance. -/
inductive IsActor (json_loads : Bytes ⊕ Text → Except PyError Json) (topic : String) : Redis Unit → Prop
  | produces (patience : Nat) (now : Int) (payload : Bytes) :
      IsActor json_loads topic (produce json_loads patience now payload topic)
  | polls (self : RedisInboundTransport) : self.inbound_topic = topic → IsActor json_loads topic self.poll
  | registers (uid : Uid) : IsActor json_loads topic (register uid)

/-- Redis and the producers and passes in progress. -/
abbrev Actors := Pool Command Command.Reply PyError Unit Store

/-- A command writes a counter only if the value that its writer knows is up to date, and
    reads it for a popped message only if it is positive. -/
def counters_up_to_date (topic : String) (log : List (Event Command Command.Reply)) (s : Store) (c : Command) : Prop :=
  ((accountant topic).ghost log).up_to_date s c

/-- The counters of every key add up to the length of its list, which holds well-formed
    messages. -/
structure Agrees (topic : String) (s : Store) : Prop where
  counted : ∀ k, pending_sum s k = (s.lists (topic_list topic k)).length
  records : ∀ k, ∀ entry ∈ s.lists (topic_list topic k), ∃ payload, entry = .inbound payload none

theorem actor_settles {json_loads : Bytes ⊕ Text → Except PyError Json} {topic : String} {p : Redis Unit}
    (actor : IsActor json_loads topic p) :
    (accountant topic).Follows (fun _ g => ∀ k, g.offset k = 0) p (accountant topic).first := by
  cases actor with
  | produces patience now payload => exact produce_settles json_loads patience now payload
  | polls self under =>
    exact Discipline.follows_mono (poll_balances self under _ rfl) (fun _ g same k => by rw [same.2]; rfl)
  | registers uid =>
    have idle : Idle topic (register uid) :=
      issues_idle (Discipline.issues_bind (Discipline.issues_call trivial) (fun _ => Discipline.issues_call trivial))
    exact Discipline.follows_mono (idle _) (fun _ g same k => by rw [same]; rfl)

theorem answered {topic : String} {s : Store} {gs : List Account} {g : Account} {c : Command} {choice : Choice}
    (inv : Balanced topic s gs) (fresh : g.up_to_date s c) : g.answers topic ⟨c, (exec c choice s).1⟩ := by
  cases c with
  | blpop list =>
    intro k same entry first
    subst same
    exact inv.records k entry (List.mem_of_mem_head? first)
  | hget_pending field =>
    intro popped
    have positive : 1 ≤ (s.uid_recip_key_pending_msg_count.lookup field).getD 0 := fresh popped
    show ∃ count, s.uid_recip_key_pending_msg_count.lookup field = some count ∧ 1 ≤ count
    cases found : s.uid_recip_key_pending_msg_count.lookup field with
    | none => rw [found] at positive; exact absurd positive (by decide)
    | some count => exact ⟨count, rfl, by simpa [found] using positive⟩
  | _ => trivial

theorem reach_balanced {json_loads : Bytes ⊕ Text → Except PyError Json} {topic : String} {init : Store}
    {pool : Actors} (start : Agrees topic init)
    (reach : Reach exec (IsActor json_loads topic) (counters_up_to_date topic) init pool) :
    Balanced topic pool.store ((accountant topic).ghosts pool) ∧
    ∀ thread ∈ pool.threads,
      (accountant topic).Follows (fun _ g => ∀ k, g.offset k = 0) thread.program
        ((accountant topic).ghost thread.log) := by
  apply Discipline.reach_invariant (accountant topic) (fun _ g => ∀ k, g.offset k = 0) (Balanced topic) _ _ _ _ _ reach
  · exact ⟨fun k => by rw [start.counted]; simp [offsets], start.records⟩
  · intro s gs inv
    exact ⟨fun k => by rw [← inv.balance k]; simp [offsets,accountant], inv.records⟩
  · exact fun p actor => actor_settles actor
  · exact fun s gs log c choice inv fresh => answered inv fresh
  · exact fun s gs i log c choice inv here may fresh => step_balanced inv here choice may fresh

/-- When no producer call and no pass is in progress, the counters of every key add up
    to the length of its list, in every run in which every write of a counter finds the
    value that its writer knows and no message is popped under a counter that is not
    positive. -/
theorem counters_agree {json_loads : Bytes ⊕ Text → Except PyError Json} {topic : String} {init : Store}
    {pool : Actors} (start : Agrees topic init)
    (reach : Reach exec (IsActor json_loads topic) (counters_up_to_date topic) init pool) (quiet : pool.quiet = true)
    (k : RecipKey) : pending_sum pool.store k = (pool.store.lists (topic_list topic k)).length := by
  obtain ⟨balanced,follows⟩ := reach_balanced start reach
  have settled : ∀ g ∈ (accountant topic).ghosts pool, ∀ k, g.offset k = 0 :=
    Discipline.quiet_post (fun _ _ ended => ended) quiet follows
  have zero : offsets ((accountant topic).ghosts pool) k = 0 := sum_map_zero _ (fun g there => settled g there k)
  have balance := balanced.balance k
  rw [zero] at balance
  omega

/-! ### Two messages

An instance registers and gets the key `k` with a first message. It handles this
message while a second one is produced. -/

def instance_a : RedisInboundTransport := ⟨uid_a, "t", "d", false, fun _ => .ok none, fun _ => 0⟩
def message_k : Redis Unit := produce loads_two 1 0 (packed protected_k) "t"

abbrev ActorMove := Move Command Command.Reply PyError Unit Choice

def steps (thread n : Nat) : List ActorMove := List.replicate n (.step thread default)

/-- The instance is registered, has its first message, and has read the counter for it. -/
def first_message : List ActorMove :=
  [.start (register uid_a), .start message_k, .start instance_a.poll, .start message_k] ++ steps 0 2 ++ steps 1 15 ++
    steps 2 4

/-- The second message is counted before the instance writes the counter. -/
def count_between : List ActorMove := first_message ++ steps 3 5 ++ steps 2 1

/-- The instance writes the counter first. -/
def count_after : List ActorMove := first_message ++ steps 2 1 ++ steps 3 5

theorem both_messages {ms : List ActorMove} (starts : started ms = started first_message) :
    ∀ p ∈ started ms, IsActor loads_two "t" p := by
  intro p member
  rw [starts] at member
  simp only [first_message,started,List.cons_append,List.nil_append,steps,List.replicate,
    List.mem_cons,List.not_mem_nil,or_false] at member
  rcases member with rfl | rfl | rfl | rfl
  · exact .registers uid_a
  · exact .produces 1 0 _
  · exact .polls instance_a rfl
  · exact .produces 1 0 _

theorem empty_agrees (topic : String) : Agrees topic Store.empty :=
  ⟨fun _ => rfl, fun _ _ member => absurd member List.not_mem_nil⟩

theorem lost_count : Agrees "t" Store.empty ∧
    ∃ pool : Actors, Reach exec (IsActor loads_two "t") anyOrder Store.empty pool ∧ pool.quiet = true ∧
      pending_sum pool.store "k" = 0 ∧ (pool.store.lists (topic_list "t" "k")).length = 1 := by
  have ran : ((⟨.empty, []⟩ : Actors).moves exec (fun _ _ _ => true) count_between).any (fun pool => pool.quiet &&
      (pending_sum pool.store "k" == 0) && ((pool.store.lists (topic_list "t" "k")).length == 1)) = true := by decide
  obtain ⟨pool,reach,tested⟩ := reach_of_test (fun _ _ _ _ => trivial) count_between _ ran (both_messages rfl)
  simp only [Bool.and_eq_true,beq_iff_eq] at tested
  exact ⟨empty_agrees "t", pool, reach, tested.1.1, tested.1.2, tested.2⟩

theorem counters_agree_after : ∃ pool : Actors,
    Reach exec (IsActor loads_two "t") (counters_up_to_date "t") Store.empty pool ∧ pool.threads.length = 4 ∧
      pending_sum pool.store "k" = (pool.store.lists (topic_list "t" "k")).length := by
  have ran : ((⟨.empty, []⟩ : Actors).moves exec (fun log s c => ((accountant "t").ghost log).checks s c) count_after).any
      (fun pool => pool.quiet && (pool.threads.length == 4)) = true := by decide
  obtain ⟨pool,reach,tested⟩ := reach_of_test (fun _ _ _ passed => Account.checks_sound passed) count_after _ ran
    (both_messages rfl)
  simp only [Bool.and_eq_true,beq_iff_eq] at tested
  exact ⟨pool, reach, tested.2, counters_agree (empty_agrees "t") reach tested.1 "k"⟩

end AcapyRedis.Pending
