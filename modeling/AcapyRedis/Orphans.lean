import AcapyRedis.Commands

/-!
Owned keys that are in no list. A call owes something from the moment it takes a key
out of a list or writes an owner until it has listed the key (`Duty`). The discipline
`keeper` follows what a call owes and which copies of the key lists it has read; its
step lemma (`step_owed`) says that a key is listed by its owner or owed by some call
as long as every list that a call writes was up to date when the call read it. For
concurrent calls this is a condition on the run; for one call alone it always holds.
-/
namespace AcapyRedis.Orphans
open AcapyRedis.Programs AcapyRedis.Python AcapyRedis.RedisStore AcapyRedis.Utils AcapyRedis.Threads
open AcapyRedis.Commands

/-- What a call owes: nothing, a new owner for a key that it took out of a list, or the
    listing of a key for the owner that it wrote. -/
inductive Duty
  | settled
  | moved (recip_key : RecipKey)
  | adding (recip_key : RecipKey) (uid : Uid)
  deriving DecidableEq

/-- Reading a list that holds the key already settles its addition. -/
def Duty.reads : Duty → Uid → List RecipKey → Duty
  | .adding k u, v, ks => if u = v ∧ k ∈ ks then .settled else .adding k u
  | duty, _, _ => duty

@[simp] theorem settled_reads (u : Uid) (ks : List RecipKey) : Duty.settled.reads u ks = .settled := rfl

/-- What a call owes, and the copies of the key lists that it read first and last
    since it began to choose a uid and that it has not used up. -/
structure Ledger where
  duty : Duty
  first : Uid → Option (List RecipKey)
  last : Uid → Option (List RecipKey)

namespace Ledger

/-- The ledger after an event. -/
def next (g : Ledger) : Event Command Command.Reply → Ledger
  | ⟨.get_round_robin, _⟩ => ⟨g.duty, fun _ => none, fun _ => none⟩
  | ⟨.hget_recip_keys u, reply⟩ =>
    ⟨g.duty.reads u (reply.getD []), Function.update g.first u (some ((g.first u).getD (reply.getD []))),
      Function.update g.last u (some (reply.getD []))⟩
  | ⟨.hset_recip_keys u (.loses k) _, _⟩ => ⟨.moved k, Function.update g.first u none, g.last⟩
  | ⟨.hset_recip_keys u (.gains _) _, _⟩ =>
    ⟨.settled, Function.update g.first u none, Function.update g.last u none⟩
  | ⟨.hdel_recip_keys u, _⟩ => ⟨g.duty, Function.update g.first u none, Function.update g.last u none⟩
  | ⟨.hset_uid k u, _⟩ => ⟨.adding k u, g.first, g.last⟩
  | _ => g

/-- The copy that the written list is computed from: `old_recip_keys_list` for a list
    that loses a key, else the list read last. -/
def copy (g : Ledger) (u : Uid) : ListChange → Option (List RecipKey)
  | .loses _ => g.first u
  | .gains _ => g.last u

/-- A call writes a list as a copy with one key more or less, deletes a list that it
    has read as empty, and ends a duty before it takes on another. -/
def may (g : Ledger) : Command → Prop
  | .hset_recip_keys u (.loses k) ks => g.duty = .settled ∧ ∃ copy, g.first u = some copy ∧
      ∀ l, l ∈ ks ↔ l ∈ copy ∧ l ≠ k
  | .hset_recip_keys u (.gains k) ks => g.duty = .adding k u ∧ ∃ copy, g.last u = some copy ∧
      ∀ l, l ∈ ks ↔ l ∈ copy ∨ l = k
  | .hset_no_recip_keys _ => False
  | .hdel_recip_keys u => g.last u = some []
  | .hset_uid k _ => g.duty = .settled ∨ g.duty = .moved k
  | _ => True

/-- When a call writes or deletes the list of a uid, every key in it that the uid owns,
    other than the key that the write is for, is in the copy that the call has read. -/
def up_to_date (g : Ledger) (s : Store) : Command → Prop
  | .hset_recip_keys u change _ => ∀ copy ∈ g.copy u change,
      ∀ k ∈ s.recip_keys u, s.recip_key_uid_map.lookup k = some u → k ∈ copy ∨ k = change.recip_key
  | .hdel_recip_keys u => ∀ copy ∈ g.last u,
      ∀ k ∈ s.recip_keys u, s.recip_key_uid_map.lookup k = some u → k ∈ copy
  | _ => True

/-- `up_to_date` for the keys that are not among some. -/
def up_to_date_but (lost : RecipKey → Prop) (g : Ledger) (s : Store) : Command → Prop
  | .hset_recip_keys u change _ => ∀ copy ∈ g.copy u change,
      ∀ k ∈ s.recip_keys u, s.recip_key_uid_map.lookup k = some u → lost k ∨ k ∈ copy ∨ k = change.recip_key
  | .hdel_recip_keys u => ∀ copy ∈ g.last u,
      ∀ k ∈ s.recip_keys u, s.recip_key_uid_map.lookup k = some u → lost k ∨ k ∈ copy
  | _ => True

theorem up_to_date.but {g : Ledger} {s : Store} {c : Command} (fresh : g.up_to_date s c) (lost : RecipKey → Prop) :
    g.up_to_date_but lost s c := by
  cases c with
  | hset_recip_keys u change ks => exact fun copy read k listed owner => .inr (fresh copy read k listed owner)
  | hdel_recip_keys u => exact fun copy read k listed owner => .inr (fresh copy read k listed owner)
  | _ => trivial

/-- The check of `up_to_date`. -/
def checks (g : Ledger) (s : Store) : Command → Bool
  | .hset_recip_keys u change _ => decide (∀ copy ∈ g.copy u change,
      ∀ k ∈ s.recip_keys u, s.recip_key_uid_map.lookup k = some u → k ∈ copy ∨ k = change.recip_key)
  | .hdel_recip_keys u => decide (∀ copy ∈ g.last u,
      ∀ k ∈ s.recip_keys u, s.recip_key_uid_map.lookup k = some u → k ∈ copy)
  | _ => true

theorem checks_sound {g : Ledger} {s : Store} {c : Command} (passed : g.checks s c = true) : g.up_to_date s c := by
  cases c with
  | hset_recip_keys u change ks =>
    rw [checks,decide_eq_true_eq] at passed
    exact passed
  | hdel_recip_keys u =>
    rw [checks,decide_eq_true_eq] at passed
    exact passed
  | _ => trivial

end Ledger

/-- A call begins without a duty and without a copy. -/
def keeper : Discipline Command Command.Reply Ledger :=
  ⟨⟨.settled, fun _ => none, fun _ => none⟩, Ledger.next, Ledger.may, fun _ _ => True⟩

/-! ### One command -/

/-- Every owned key is listed by its owner, owed by a call, or among the lost ones. -/
def Owed (lost : RecipKey → Prop) (s : Store) (gs : List Ledger) : Prop :=
  ∀ k u, s.recip_key_uid_map.lookup k = some u →
    k ∈ s.recip_keys u ∨ lost k ∨ ∃ g ∈ gs, g.duty = .moved k ∨ g.duty = .adding k u

/-- When no call owes anything, a key is listed or lost. -/
theorem Owed.settled {lost : RecipKey → Prop} {s : Store} {gs : List Ledger} (owed : Owed lost s gs)
    (settled : ∀ g ∈ gs, g.duty = .settled) {k : RecipKey} {u : Uid} (owner : s.recip_key_uid_map.lookup k = some u) :
    k ∈ s.recip_keys u ∨ lost k := by
  obtain listed | gone | ⟨g,there,owes⟩ := owed k u owner
  · exact .inl listed
  · exact .inr gone
  · rw [settled g there] at owes
    obtain moved | adding := owes
    · cases moved
    · cases adding

theorem mem_of_set {gs : List Ledger} {i : Nat} {g h : Ledger} (g' : Ledger) (here : gs[i]? = some g) (member : h ∈ gs) :
    h = g ∨ h ∈ gs.set i g' := by
  obtain ⟨j,there⟩ := List.mem_iff_getElem?.mp member
  by_cases same : j = i
  · subst same
    rw [there] at here
    exact .inl (Option.some.inj here)
  · exact .inr (List.mem_iff_getElem?.mpr ⟨j, by rw [List.getElem?_set_ne (Ne.symm same)]; exact there⟩)

theorem mem_set_self {gs : List Ledger} {i : Nat} {g : Ledger} (g' : Ledger) (here : gs[i]? = some g) :
    g' ∈ gs.set i g' := List.mem_set (List.getElem?_eq_some_iff.mp here).1 _

section
variable {lost : RecipKey → Prop} {s : Store} {gs : List Ledger} {i : Nat} {g : Ledger}

theorem same_duty_owed (owed : Owed lost s gs) (here : gs[i]? = some g) {g' : Ledger} (same : g'.duty = g.duty) :
    Owed lost s (gs.set i g') := by
  intro k u owner
  rcases owed k u owner with listed | gone | ⟨h,there,owes⟩
  · exact .inl listed
  · exact .inr (.inl gone)
  · rcases mem_of_set g' here there with rfl | other
    · exact .inr (.inr ⟨g', mem_set_self g' here, same ▸ owes⟩)
    · exact .inr (.inr ⟨h,other,owes⟩)

theorem read_owed (owed : Owed lost s gs) (here : gs[i]? = some g) (u : Uid) :
    Owed lost s (gs.set i (g.next ⟨.hget_recip_keys u, s.uid_recip_keys_map.lookup u⟩)) := by
  intro k v owner
  have member := mem_set_self (g.next ⟨.hget_recip_keys u, s.uid_recip_keys_map.lookup u⟩) here
  rcases owed k v owner with listed | gone | ⟨h,there,owes⟩
  · exact .inl listed
  · exact .inr (.inl gone)
  · rcases mem_of_set _ here there with rfl | other
    · rcases owes with moved | adding
      · exact .inr (.inr ⟨_, member, .inl (by simp [Ledger.next,moved,Duty.reads])⟩)
      · by_cases seen : v = u ∧ k ∈ s.recip_keys u
        · exact .inl (seen.1 ▸ seen.2)
        · refine .inr (.inr ⟨_, member, .inr ?_⟩)
          simp only [Ledger.next,adding,Duty.reads]
          exact if_neg seen
    · exact .inr (.inr ⟨h,other,owes⟩)

theorem write_owed (owed : Owed lost s gs) (here : gs[i]? = some g) {u : Uid} {change : ListChange}
    {ks ks' : List RecipKey} (perm : ks'.Perm ks) (may : g.may (.hset_recip_keys u change ks))
    (fresh : g.up_to_date_but lost s (.hset_recip_keys u change ks)) :
    Owed lost { s with uid_recip_keys_map := s.uid_recip_keys_map.insert u ks' }
      (gs.set i (g.next ⟨.hset_recip_keys u change ks, ()⟩)) := by
  intro k v owner
  have member := mem_set_self (g.next ⟨.hset_recip_keys u change ks, ()⟩) here
  have written : k ∈ ks → v = u → k ∈ ((s.uid_recip_keys_map.insert u ks').lookup v).getD [] := by
    rintro kept rfl
    simpa [perm.mem_iff] using kept
  rcases owed k v owner with listed | gone | ⟨h,there,owes⟩
  · by_cases target : v = u
    · subst target
      cases change with
      | gains l =>
        obtain ⟨_,copy,read,same⟩ := may
        obtain gone | kept := fresh copy read k listed owner
        · exact .inr (.inl gone)
        · exact .inl (written ((same k).mpr kept) rfl)
      | loses l =>
        obtain ⟨_,copy,read,same⟩ := may
        by_cases own : k = l
        · exact .inr (.inr ⟨_, member, .inl (by rw [own]; rfl)⟩)
        · obtain gone | kept := fresh copy read k listed owner
          · exact .inr (.inl gone)
          · exact .inl (written ((same k).mpr ⟨kept.resolve_right own, own⟩) rfl)
    · refine .inl ?_
      show k ∈ ((s.uid_recip_keys_map.insert u ks').lookup v).getD []
      rwa [recip_keys_insert_ne s ks' target]
  · exact .inr (.inl gone)
  · rcases mem_of_set _ here there with rfl | other
    · cases change with
      | gains l =>
        obtain ⟨duty,copy,_,same⟩ := may
        rw [duty] at owes
        rcases owes with moved | adding
        · cases moved
        · cases adding
          exact .inl (written ((same k).mpr (.inr rfl)) rfl)
      | loses l =>
        rw [may.1] at owes
        rcases owes with moved | adding
        · cases moved
        · cases adding
    · exact .inr (.inr ⟨h,other,owes⟩)

theorem delete_owed (owed : Owed lost s gs) (here : gs[i]? = some g) {u : Uid} (may : g.may (.hdel_recip_keys u))
    (fresh : g.up_to_date_but lost s (.hdel_recip_keys u)) :
    Owed lost { s with uid_recip_keys_map := s.uid_recip_keys_map.erase u }
      (gs.set i (g.next ⟨.hdel_recip_keys u, ()⟩)) := by
  intro k v owner
  have same : (g.next ⟨.hdel_recip_keys u, ()⟩).duty = g.duty := rfl
  rcases same_duty_owed owed here same k v owner with listed | rest
  · by_cases target : v = u
    · subst target
      obtain gone | kept := fresh [] may k listed owner
      · exact .inr (.inl gone)
      · exact absurd kept List.not_mem_nil
    · refine .inl ?_
      show k ∈ ((s.uid_recip_keys_map.erase u).lookup v).getD []
      rwa [recip_keys_erase_ne s target]
  · exact .inr rest

theorem assign_owed (owed : Owed lost s gs) (here : gs[i]? = some g) {l : RecipKey} {u : Uid}
    (may : g.may (.hset_uid l u)) :
    Owed lost { s with recip_key_uid_map := s.recip_key_uid_map.insert l u }
      (gs.set i (g.next ⟨.hset_uid l u, ()⟩)) := by
  intro k v owner
  have member := mem_set_self (g.next ⟨.hset_uid l u, ()⟩) here
  by_cases same : k = l
  · subst same
    have target : u = v := by simpa using owner
    subst target
    exact .inr (.inr ⟨_,member,.inr rfl⟩)
  · have before : s.recip_key_uid_map.lookup k = some v := by simpa [AList.lookup_insert_ne same] using owner
    rcases owed k v before with listed | gone | ⟨h,there,owes⟩
    · exact .inl listed
    · exact .inr (.inl gone)
    · rcases mem_of_set _ here there with rfl | other
      · rcases may with settled | moved
        · simp [settled] at owes
        · rw [moved] at owes
          rcases owes with first | second
          · exact absurd (Duty.moved.inj first).symm same
          · cases second
      · exact .inr (.inr ⟨h,other,owes⟩)

/-- A command of a call that keeps to the discipline leaves every owned key listed, owed
    or lost, when the copies are up to date for the keys that are not lost. -/
theorem step_owed (owed : Owed lost s gs) (here : gs[i]? = some g) {c : Command} (choice : Choice) (may : g.may c)
    (fresh : g.up_to_date_but lost s c) : Owed lost (exec c choice s).2 (gs.set i (g.next ⟨c, (exec c choice s).1⟩)) := by
  cases c with
  | hget_recip_keys u => exact read_owed owed here u
  | hset_recip_keys u change ks => exact write_owed owed here (arranged_perm _ _) may fresh
  | hset_no_recip_keys u => exact may.elim
  | hdel_recip_keys u => exact delete_owed owed here may fresh
  | hset_uid k u => exact assign_owed owed here may
  | _ => exact same_duty_owed owed here rfl

end

/-! ### One call -/

/-- A program that leaves the ledger as it is. -/
def Neutral {α : Type} (p : Redis α) : Prop := ∀ g, keeper.Follows (fun _ g' => g' = g) p g

/-- A program that begins and ends without a duty, also when it raises. -/
def Settles {α : Type} (p : Redis α) : Prop :=
  ∀ g, g.duty = .settled → keeper.Follows (fun _ g' => g'.duty = .settled) p g

theorem Neutral.settles {α : Type} {p : Redis α} (neutral : Neutral p) : Settles p :=
  fun g settled => Discipline.follows_mono (neutral g) (fun _ _ same => same ▸ settled)

theorem settles_bind {α β : Type} {p : Redis α} {rest : α → Redis β} (first : Settles p)
    (later : ∀ value, Settles (rest value)) : Settles (p >>= rest) := by
  intro g settled
  refine Discipline.follows_bind_rel (fun _ (g' : Ledger) => g'.duty = .settled) ?_ (first g settled) later
  exact fun _ still => still

theorem neutral_done {α : Type} (value : α) : Neutral (.done value : Redis α) := fun _ => rfl

/-- The commands that change no ledger. -/
def Elsewhere : Command → Prop
  | .get_round_robin => False
  | .hget_recip_keys _ => False
  | .hset_recip_keys _ _ _ => False
  | .hset_no_recip_keys _ => False
  | .hdel_recip_keys _ => False
  | .hset_uid _ _ => False
  | _ => True

theorem elsewhere_next {c : Command} (elsewhere : Elsewhere c) (g : Ledger) :
    keeper.may g c ∧ ∀ reply, keeper.next g ⟨c, reply⟩ = g := by
  cases c <;> first | exact elsewhere.elim | exact ⟨trivial, fun _ => rfl⟩

/-- A program of such commands. -/
theorem issues_neutral {α : Type} {p : Redis α} (issued : Discipline.Issues Elsewhere p) : Neutral p := by
  intro g
  refine Discipline.Issues.keeps (fun g' c same elsewhere => ?_) issued rfl
  subst same
  exact elsewhere_next elsewhere g'

theorem neutral_redis {c : Command} (elsewhere : Elsewhere c) : Neutral (redis c) :=
  issues_neutral (Discipline.issues_call elsewhere)

/-- The ledger of a call that has just chosen a uid. -/
def Ledger.chosen (g : Ledger) : Ledger := ⟨g.duty, fun _ => none, fun _ => none⟩

theorem selects_next {c : Command} (selects : Selects c) (g : Ledger) :
    keeper.may g.chosen c ∧ ∀ reply, keeper.next g.chosen ⟨c, reply⟩ = g.chosen := by
  cases c <;> first | exact selects.elim | exact ⟨trivial, fun _ => rfl⟩

/-- Its first command drops the copies, and no other one changes the ledger. -/
theorem get_new_valid_uid_follows (ignored : Option Uid) (patience : Nat) (g : Ledger) :
    keeper.Follows (fun _ g' => g' = g.chosen) (get_new_valid_uid ignored patience) g := by
  cases patience with
  | zero => trivial
  | succ patience =>
    refine ⟨trivial, ?_⟩
    intro present _
    have rest := (get_new_valid_uid_issues ignored (patience+1)).2 present trivial
    refine Discipline.Issues.keeps (fun g' c same selects => ?_) rest rfl
    subst same
    exact selects_next selects g

/-- A program that goes on from a uid just chosen. -/
theorem choose_settles {ignored : Option Uid} {patience : Nat} {rest : Uid → Redis Uid}
    (later : ∀ u (g : Ledger), g.duty = .settled → keeper.Follows (fun _ g' => g'.duty = .settled) (rest u) g.chosen) :
    Settles (get_new_valid_uid ignored patience >>= rest) := by
  intro g settled
  rw [Discipline.follows_bind]
  refine Discipline.follows_mono (get_new_valid_uid_follows ignored patience g) (fun outcome g' same => ?_)
  subst same
  cases outcome with
  | ok u => exact later u g settled
  | error error => exact settled

theorem assign_settles (patience : Nat) (k : RecipKey) : Settles (assign_recip_key_to_new_uid patience k) := by
  refine choose_settles (fun u g settled => ?_)
  have finish : Settles (do redis (.hset_pending (uid_recip_key u k) 0); return u : Redis Uid) :=
    settles_bind (neutral_redis (c := .hset_pending _ 0) trivial).settles (fun _ => (neutral_done u).settles)
  refine ⟨.inl settled, fun _ _ => ⟨trivial, fun reply _ => ?_⟩⟩
  show keeper.Follows _ (if k ∉ (reply.getD []).dedup then _ else _) _
  by_cases listed : k ∈ reply.getD []
  · rw [if_neg (by simpa using listed)]
    exact finish _ (by simp [Ledger.next,Duty.reads,listed,keeper])
  · rw [if_pos (by simpa using listed)]
    refine ⟨⟨?_, reply.getD [], ?_, fun l => ?_⟩, fun _ _ => finish _ rfl⟩
    · simp [Ledger.next,Duty.reads,listed,keeper]
    · simp [Ledger.next,keeper]
    · simp [or_comm]

theorem reassign_settles (patience : Nat) (old : Uid) (k : RecipKey) :
    Settles (reassign_recip_key_to_uid patience old k) := by
  refine choose_settles (fun new g settled => ?_)
  refine ⟨trivial, fun olds _ => ⟨trivial, fun news _ => ?_⟩⟩
  refine ⟨⟨?_, olds.getD [], ?_, fun l => ?_⟩, fun _ _ => ⟨trivial, fun count _ => ⟨trivial, fun _ _ => ?_⟩⟩⟩
  · simp [Ledger.next,Ledger.chosen,Duty.reads,settled,keeper]
  · by_cases same : new = old
    · subst same; simp [Ledger.next,Ledger.chosen,keeper]
    · simp [Ledger.next,Ledger.chosen,keeper,Function.update_of_ne (Ne.symm same)]
  · rw [(List.nodup_dedup _).mem_erase_iff,List.mem_dedup,and_comm]
  · refine ⟨.inr rfl, fun _ _ => ⟨⟨rfl, news.getD [], ?_, fun l => ?_⟩, fun _ _ => ?_⟩⟩
    · simp [Ledger.next,keeper]
    · simp [or_comm]
    · cases count with
      | some count => exact ⟨trivial, fun _ _ => rfl⟩
      | none => exact rfl

theorem read_list_settles (u : Uid) : Settles (get_recip_keys_list_for_uid u) := by
  refine fun g settled => ⟨trivial, fun reply _ => ?_⟩
  show (g.duty.reads u (reply.getD [])) = .settled
  rw [settled,settled_reads]

theorem any_pending_neutral (old : Uid) (ks : List RecipKey) : Neutral (any_pending old ks) := by
  refine issues_neutral ((any_pending_issues old ks).mono (fun c counts => ?_))
  cases c <;> first | exact counts.elim | trivial

theorem reassign_all_settles (patience : Nat) (old : Uid) (key : RecipKey) (ks : List RecipKey) :
    ∀ plugin_uid, Settles (reassign_all patience old key plugin_uid ks) := by
  induction ks with
  | nil => exact fun plugin_uid => (neutral_done plugin_uid).settles
  | cons k rest ih => exact fun _ => settles_bind (reassign_settles patience old k) (fun _ => ih _)

/-- The branch of a stale uid deletes the list of the uid only after reading it as empty. -/
theorem evacuate_settles (patience : Nat) (old : Uid) (key : RecipKey) : Settles (evacuate patience old key) := by
  refine settles_bind (read_list_settles old) (fun ks => ?_)
  refine settles_bind (any_pending_neutral old ks).settles (fun pending => ?_)
  cases pending with
  | false => exact (neutral_done old).settles
  | true =>
    refine settles_bind (reassign_all_settles patience old key ks old) (fun u g settled => ⟨trivial, fun left _ => ?_⟩)
    have still : (keeper.next g ⟨.hget_recip_keys old, left⟩).duty = .settled := by
      show g.duty.reads old (left.getD []) = .settled
      rw [settled,settled_reads]
    show keeper.Follows _ (if (left.getD []).isEmpty then _ else _) _
    by_cases empty : left.getD [] = []
    · rw [if_pos (by simp [empty])]
      exact ⟨by simp [keeper,Ledger.may,Ledger.next,empty], fun _ _ => still⟩
    · rw [if_neg (by simpa using empty)]
      exact still

theorem find_or_assign_settles (patience : Nat) (k : RecipKey) : Settles (find_or_assign patience k) := by
  refine settles_bind (neutral_redis (c := .hexists_uid k) trivial).settles (fun present => ?_)
  cases present with
  | true =>
    refine settles_bind (neutral_redis (c := .hget_uid k) trivial).settles (fun owner => ?_)
    cases owner with
    | some u => exact (neutral_done u).settles
    | none => exact fun _ settled => settled
  | false => exact assign_settles patience k

theorem process_recip_key_settles (patience : Nat) (now : Int) (k : RecipKey) :
    Settles (process_recip_key patience now k) := by
  refine settles_bind (find_or_assign_settles patience k) (fun u => ?_)
  refine settles_bind (neutral_redis (c := .hget_last_access u) trivial).settles (fun access => ?_)
  have count : ∀ v, Settles (redis (.hincrby_pending (uid_recip_key v k) 1)) :=
    fun v => (neutral_redis (c := .hincrby_pending _ 1) trivial).settles
  show Settles (if stale_uid_check now access then _ else _)
  split
  · exact settles_bind (evacuate_settles patience u k) count
  · exact count u

/-- A call ends without a duty, whatever the other calls do in between. -/
theorem process_payload_settles (json_loads : Bytes ⊕ Text → Except PyError Json) (patience : Nat) (now : Int)
    (payload : Bytes) (topic : String) :
    Settles (process_payload_recip_key json_loads patience now payload topic) := by
  rw [process_payload_recip_key]
  cases recip_key_of json_loads payload with
  | error error => exact fun _ settled => settled
  | ok k => exact settles_bind (process_recip_key_settles patience now k) (fun _ => (neutral_done _).settles)

/-! ### Concurrent calls -/

/-- Every owned key is in the list of its owner. -/
def NoOrphans (s : Store) : Prop := ∀ k u, s.recip_key_uid_map.lookup k = some u → k ∈ s.recip_keys u

/-- Redis and the calls in progress. -/
abbrev Calls := Pool Command Command.Reply PyError (String × Entry) Store

/-- The calls of the producers, for any payloads, clock readings and topics. -/
def IsCall (json_loads : Bytes ⊕ Text → Except PyError Json) (p : Redis (String × Entry)) : Prop :=
  ∃ patience now payload topic, p = process_payload_recip_key json_loads patience now payload topic

/-- A command writes a key list only if the copy that the call read is up to date. -/
def lists_up_to_date (log : List (Event Command Command.Reply)) (s : Store) (c : Command) : Prop :=
  (keeper.ghost log).up_to_date s c

theorem reach_owed {json_loads : Bytes ⊕ Text → Except PyError Json} {init : Store}
    {pool : Calls} (start : NoOrphans init)
    (reach : Reach exec (IsCall json_loads) lists_up_to_date init pool) :
    Owed (fun _ => False) pool.store (keeper.ghosts pool) ∧
    ∀ thread ∈ pool.threads, keeper.Follows (fun _ g => g.duty = .settled) thread.program (keeper.ghost thread.log) := by
  apply Discipline.reach_invariant keeper (fun _ g => g.duty = .settled) (Owed (fun _ => False)) _ _ _ _ _ reach
  · exact fun k u owner => .inl (start k u owner)
  · intro s gs owed k u owner
    rcases owed k u owner with listed | gone | ⟨g,there,owes⟩
    · exact .inl listed
    · exact gone.elim
    · exact .inr (.inr ⟨g, List.mem_append_left _ there, owes⟩)
  · rintro _ ⟨patience,now,payload,topic,rfl⟩
    exact process_payload_settles json_loads patience now payload topic _ rfl
  · exact fun _ _ _ _ _ _ _ => trivial
  · exact fun s gs i log c choice owed here may fresh => step_owed owed here choice may (fresh.but _)

/-- Once all calls have returned, every owned key is in the list of its owner, in every
    run in which every call writes key lists from copies that are still up to date. -/
theorem no_orphans {json_loads : Bytes ⊕ Text → Except PyError Json} {init : Store}
    {pool : Calls} (start : NoOrphans init)
    (reach : Reach exec (IsCall json_loads) lists_up_to_date init pool) (quiet : pool.quiet = true) :
    NoOrphans pool.store := by
  obtain ⟨owed,follows⟩ := reach_owed start reach
  have settled : ∀ g ∈ keeper.ghosts pool, g.duty = .settled :=
    Discipline.quiet_post (fun _ _ ended => ended) quiet follows
  exact fun k u owner => (owed.settled settled owner).resolve_right id

/-! ### Two calls

Two producers assign the keys `k` and `l` to the only uid, whose list is empty. -/

def one_uid : Store := { Store.empty with uid_recip_keys_map := Store.empty.uid_recip_keys_map.insert uid_a [] }

abbrev CallMove := Move Command Command.Reply PyError (String × Entry) Choice

def call_of (payload : Bytes) : Redis (String × Entry) := process_payload_recip_key loads_two 1 0 payload "t"

def steps (thread n : Nat) : List CallMove := List.replicate n (.step thread default)

def both_start : List CallMove := [.start (call_of (packed protected_k)), .start (call_of (packed protected_l))]

/-- The second call reads the list of the uid before the first one writes it. -/
def race : List CallMove := both_start ++ steps 0 8 ++ steps 1 7 ++ steps 0 6 ++ steps 1 6

/-- The second call begins when the first one has returned. -/
def in_turn : List CallMove := both_start ++ steps 0 14 ++ steps 1 39

theorem one_uid_no_orphans : NoOrphans one_uid := fun k u owner => by simp [one_uid,Store.empty] at owner

theorem both_calls {ms : List CallMove} (starts : started ms = started both_start) :
    ∀ program ∈ started ms, IsCall loads_two program := by
  intro program member
  rw [starts] at member
  simp only [both_start,started,List.mem_cons,List.not_mem_nil,or_false] at member
  rcases member with rfl | rfl
  · exact ⟨1,0,_,"t",rfl⟩
  · exact ⟨1,0,_,"t",rfl⟩

/-- Whether all calls have returned and the key `k` is owned by the only uid, but in
    its list or not as `listed` says. -/
def leaves_k (listed : Bool) (pool : Calls) : Bool :=
  pool.quiet && decide (pool.store.recip_key_uid_map.lookup "k" = some uid_a) &&
    (decide ("k" ∈ pool.store.recip_keys uid_a) == listed)

theorem race_orphans_key : NoOrphans one_uid ∧ one_uid.uid_recip_keys_map.keys = [uid_a] ∧
    ∃ pool : Calls, Reach exec (IsCall loads_two) anyOrder one_uid pool ∧ pool.quiet = true ∧
      ¬ NoOrphans pool.store := by
  have ran : ((⟨one_uid, []⟩ : Calls).moves exec (fun _ _ _ => true) race).any (leaves_k false) = true := by decide
  obtain ⟨pool,reach,tested⟩ := reach_of_test (fun _ _ _ _ => trivial) race _ ran (both_calls rfl)
  simp only [leaves_k,Bool.and_eq_true,decide_eq_true_eq,beq_false,Bool.not_eq_true',decide_eq_false_iff_not] at tested
  exact ⟨one_uid_no_orphans, rfl, pool, reach, tested.1.1, fun kept => tested.2 (kept "k" uid_a tested.1.2)⟩

theorem no_orphans_in_turn : ∃ pool : Calls, Reach exec (IsCall loads_two) lists_up_to_date one_uid pool ∧
    pool.threads.length = 2 ∧ NoOrphans pool.store := by
  have ran : ((⟨one_uid, []⟩ : Calls).moves exec (fun log s c => (keeper.ghost log).checks s c) in_turn).any
      (fun pool => pool.quiet && pool.threads.length == 2) = true := by decide
  obtain ⟨pool,reach,tested⟩ := reach_of_test (fun _ _ _ passed => Ledger.checks_sound passed) in_turn _ ran
    (both_calls rfl)
  simp only [Bool.and_eq_true,beq_iff_eq] at tested
  exact ⟨pool, reach, tested.2, no_orphans one_uid_no_orphans reach tested.1⟩

end AcapyRedis.Orphans
