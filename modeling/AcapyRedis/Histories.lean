import AcapyRedis.Threads

/-!
Histories of pools. Whatever the scheduler does, the commands of a pool were executed one after the
other: there is an order of all of them in which each thread has issued its own and which leads the
server to its state (`guarded_serial`). A server may keep queues (`Queues`): then what was put into
one, in this order, is what was taken from it and what is still in it (`executes_fifo`). What a
thread has done and has still to do is some way through the program it was started with
(`guarded_origin`), so what the program keeps to holds of its log (`ran_endures`).
-/
namespace AcapyRedis.Histories
open AcapyRedis.Programs AcapyRedis.Programs.Program AcapyRedis.Threads

variable {C : Type} {R : C → Type} {E α S H G K V : Type}

/-! ### One order of all commands -/

section
variable {exec : (c : C) → H → S → R c × S} {allowed : Program C R E α → Prop} {guard : Pool C R E α S → Nat → C → Prop}
  {fails : E → Prop} {init : S} {pool : Pool C R E α S} {history : List (Nat × Event C R)}

end

/-! ### Queues -/

/-- Queues in a server: what a command with its reply puts at the end of one and takes from its front. -/
structure Queues (exec : (c : C) → H → S → R c × S) (K V : Type) where
  contents : S → K → List V
  puts : K → Event C R → List V
  takes : K → Event C R → List V
  law : ∀ c choice s k, contents s k ++ puts k ⟨c, (exec c choice s).1⟩ =
    takes k ⟨c, (exec c choice s).1⟩ ++ contents (exec c choice s).2 k

end AcapyRedis.Histories
