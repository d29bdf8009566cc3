import Reckon.Shared

/-!
Threads that share a table under one lock.

A call acquires the lock, is worked out on the table, changes the table,
and releases the lock. The steps of different threads are taken in any
order, and the only thing that holds a thread up is the lock: without it, a
table could change between what a call reads from it and what it writes.

* `Phase`: how far a call is;
* `System`: the table, who holds the lock, and the threads;
* `Step`: the steps of a system, `Steps` any number of them. `Steps`
  keeps the calls in the order in which they acquired the lock.
-/

namespace Reckon.Shared

/-- How far the thread that holds the lock is with its call. -/
inductive Phase where
  /-- The lock is acquired. -/
  | acquired (call : Call)
  /-- The call is worked out, the table is untouched. -/
  | computed (call : Call) (reply : Reply) (after : Variables)
  /-- The table is changed, the reply is not yet handed out. -/
  | stored (call : Call) (reply : Reply)

/-- A thread: the calls it still has to make, and the replies it got. -/
structure Thread where
  todo : List Call
  replies : List Reply

/-- Threads named by `ι` and the table they share. -/
structure System (ι : Type) where
  table : Variables
  /-- The thread that holds the lock, and how far it is. -/
  lock : Option (ι × Phase)
  threads : ι → Thread

namespace System

variable {ι : Type} [DecidableEq ι]

/-- The system with another thread in the place of `i`. -/
def withThread (sys : System ι) (i : ι) (t : Thread) : System ι :=
  { sys with threads := fun j => if j = i then t else sys.threads j }

theorem threads_withThread_self (sys : System ι) (i : ι) (t : Thread) :
    (sys.withThread i t).threads i = t := by
  simp [withThread]

theorem threads_withThread_of_ne (sys : System ι) {i j : ι} (h : j ≠ i) (t : Thread) :
    (sys.withThread i t).threads j = sys.threads j := by
  simp [withThread, h]

/-- Threads that have their calls still to make, and a free lock. -/
def start (table : Variables) (calls : ι → List Call) : System ι where
  table := table
  lock := none
  threads i := ⟨calls i, []⟩

/-- No thread has a call left, and the lock is free. -/
def Finished (sys : System ι) : Prop :=
  sys.lock = none ∧ ∀ i, (sys.threads i).todo = []

end System

variable {ι : Type} [DecidableEq ι] [FloatFunctions]

/-- The steps of a system. The label is the call that acquires the lock, with its
thread, and nothing for the other steps. -/
inductive Step : System ι → Option (ι × Call) → System ι → Prop where
  /-- A thread acquires the free lock for its next call. -/
  | acquire {sys : System ι} {i : ι} {call : Call} {rest : List Call}
      (free : sys.lock = none) (next : (sys.threads i).todo = call :: rest) :
      Step sys (some (i, call))
        { sys.withThread i ⟨rest, (sys.threads i).replies⟩ with
          lock := some (i, .acquired call) }
  /-- The thread that holds the lock works its call out on the table. -/
  | compute {sys : System ι} {i : ι} {call : Call} (held : sys.lock = some (i, .acquired call)) :
      Step sys none
        { sys with
          lock := some
            (i, .computed call (call.perform sys.table).1 (call.perform sys.table).2) }
  /-- The thread that holds the lock changes the table to what its call left. -/
  | store {sys : System ι} {i : ι} {call : Call} {reply : Reply} {after : Variables}
      (held : sys.lock = some (i, .computed call reply after)) :
      Step sys none { sys with table := after, lock := some (i, .stored call reply) }
  /-- The thread that holds the lock releases it and has its reply. -/
  | release {sys : System ι} {i : ι} {call : Call} {reply : Reply}
      (held : sys.lock = some (i, .stored call reply)) :
      Step sys none
        { sys.withThread i ⟨(sys.threads i).todo, (sys.threads i).replies ++ [reply]⟩ with
          lock := none }

/-- Any number of steps, with the calls in the order in which they acquired the
lock. -/
inductive Steps : System ι → List (ι × Call) → System ι → Prop where
  | refl (sys : System ι) : Steps sys [] sys
  | step {sys mid final : System ι} {label : Option (ι × Call)} {order : List (ι × Call)}
      (first : Step sys label mid) (rest : Steps mid order final) :
      Steps sys (label.toList ++ order) final

end Reckon.Shared
