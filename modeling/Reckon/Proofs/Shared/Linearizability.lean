import Mathlib.Tactic.Lemma
import Mathlib.Tactic.SplitIfs
import Reckon.Shared.Schedule

/-!
Threads under one lock are indistinguishable from calls one after another.

Only the thread that holds the lock touches the table. So at any time the
table is what the calls that are over have made of it, one after another in
the order in which they acquired the lock, and at most one more call is
under way.

* `performAll_concat`: one more call at the end of others;
* `repliesOf`: the replies of one thread among the replies to all calls;
* `Ordered`: the invariant. `ordered_step` says that every step keeps it,
  and `ordered_steps` that every run does;
* `exists_take_of_mem`: a copy of the table among the replies is the table
  after some of the calls;
* `sequential_of_finished`: what is left at the end of a run;
* `linearizable`: what the threads see in any run, whatever its steps.
-/

namespace Reckon

open Shared

/-! ### What belongs to one thread -/

/-- The calls in the order in which they acquired the lock. -/
def callsIn {ι : Type} (order : List (ι × Call)) : List Call := order.map Prod.snd

section Threads

variable {ι : Type} [DecidableEq ι]

/-- The calls of a thread, in order. -/
def callsOf (i : ι) (order : List (ι × Call)) : List Call :=
  callsIn (order.filter fun p => p.1 = i)

/-- The replies to the calls of a thread, among the replies to all calls. -/
def repliesOf (i : ι) (order : List (ι × Call)) (replies : List Reply) : List Reply :=
  ((order.zip replies).filter fun p => p.1.1 = i).map Prod.snd

lemma callsOf_concat (i j : ι) (order : List (ι × Call)) (call : Call) :
    callsOf i (order ++ [(j, call)]) = callsOf i order ++ if j = i then [call] else [] := by
  rw [callsOf, callsOf, List.filter_append, callsIn, List.map_append]
  by_cases hj : j = i <;> simp [callsIn, hj]

lemma repliesOf_concat (i j : ι) {order : List (ι × Call)} {replies : List Reply} (call : Call)
    (reply : Reply) (h : replies.length = order.length) :
    repliesOf i (order ++ [(j, call)]) (replies ++ [reply]) =
      repliesOf i order replies ++ if j = i then [reply] else [] := by
  rw [repliesOf, repliesOf, List.zip_append h.symm, List.filter_append, List.map_append]
  by_cases hj : j = i <;> simp [hj]

lemma mem_of_mem_repliesOf {i : ι} {order : List (ι × Call)} {replies : List Reply} {reply : Reply}
    (h : reply ∈ repliesOf i order replies) : reply ∈ replies := by
  obtain ⟨p, hp, rfl⟩ := List.mem_map.1 h
  have hzip : p ∈ order.zip replies := (List.mem_filter.1 hp).1
  exact (List.of_mem_zip hzip).2

end Threads

/-! ### Calls one after another -/

section Calls

variable [FloatFunctions]

/-- One more call after others. -/
lemma performAll_concat (calls : List Call) (call : Call) (table : Variables) :
    performAll (calls ++ [call]) table =
      ((performAll calls table).1 ++ [(call.perform (performAll calls table).2).1],
        (call.perform (performAll calls table).2).2) := by
  induction calls generalizing table with
  | nil => rfl
  | cons first rest ih =>
      show ((first.perform table).1 :: (performAll (rest ++ [call]) (first.perform table).2).1,
        (performAll (rest ++ [call]) (first.perform table).2).2) = _
      rw [ih]
      rfl

/-- Every call has a reply. -/
lemma length_performAll (calls : List Call) (table : Variables) :
    (performAll calls table).1.length = calls.length := by
  induction calls generalizing table with
  | nil => rfl
  | cons first rest ih =>
      show (performAll rest (first.perform table).2).1.length + 1 = rest.length + 1
      rw [ih]

/-- A copy of the table among the replies is the table after the calls that came before. -/
lemma exists_take_of_mem {calls : List Call} {table vars : Variables}
    (h : Reply.table vars ∈ (performAll calls table).1) :
    ∃ k ≤ calls.length, vars = (performAll (calls.take k) table).2 := by
  induction calls generalizing table with
  | nil => cases h
  | cons first rest ih =>
      replace h : Reply.table vars ∈
          (first.perform table).1 :: (performAll rest (first.perform table).2).1 := h
      rcases List.mem_cons.1 h with hfirst | hrest
      · cases first with
        | evaluate text => cases hfirst
        | snapshot =>
            cases hfirst
            exact ⟨0, Nat.zero_le _, rfl⟩
      · obtain ⟨k, hk, hvars⟩ := ih hrest
        exact ⟨k + 1, Nat.succ_le_succ hk, hvars⟩

end Calls

/-! ### The invariant -/

namespace Shared

/-- The call that a phase belongs to. -/
def Phase.call : Phase → Call
  | acquired call => call
  | computed call _ _ => call
  | stored call _ => call

variable {ι : Type} [DecidableEq ι]

/-- The call under way, with its thread. -/
def underway : Option (ι × Phase) → List (ι × Call)
  | none => []
  | some (i, phase) => [(i, phase.call)]

section Runs

variable [FloatFunctions]

/-- The table is what the calls that are over left, but for what the call under way did
to it. -/
def Standing (left : Variables) (table : Variables) : Option (ι × Phase) → Prop
  | none => table = left
  | some (_, .acquired _) => table = left
  | some (_, .computed call reply after) => table = left ∧ call.perform left = (reply, after)
  | some (_, .stored call reply) => call.perform left = (reply, table)

/-- The calls acquired the lock in this order, those of the list `past` are over, and the
system is as if they had been made one after another. -/
structure Ordered (table : Variables) (calls : ι → List Call) (past order : List (ι × Call))
    (sys : System ι) : Prop where
  order_eq : order = past ++ underway sys.lock
  todo : ∀ i, callsOf i order ++ (sys.threads i).todo = calls i
  replies : ∀ i, (sys.threads i).replies = repliesOf i past (performAll (callsIn past) table).1
  standing : Standing (performAll (callsIn past) table).2 sys.table sys.lock

lemma ordered_start (table : Variables) (calls : ι → List Call) :
    Ordered table calls [] [] (System.start table calls) where
  order_eq := rfl
  todo _ := rfl
  replies _ := rfl
  standing := rfl

variable {table : Variables} {calls : ι → List Call} {past order : List (ι × Call)}
  {sys : System ι} {i : ι} {call : Call}

/-- A thread that acquires the lock begins with its next call. -/
lemma Ordered.acquire (h : Ordered table calls past order sys) {rest : List Call}
    (free : sys.lock = none) (next : (sys.threads i).todo = call :: rest) :
    Ordered table calls past (order ++ [(i, call)])
      { sys.withThread i ⟨rest, (sys.threads i).replies⟩ with
        lock := some (i, .acquired call) } where
  order_eq := by
    have horder : order = past := by
      rw [h.order_eq, free]
      exact List.append_nil past
    rw [horder]
    rfl
  todo j := by
    have htodo := h.todo j
    rw [callsOf_concat]
    by_cases hj : j = i
    · subst hj
      rw [next] at htodo
      rw [if_pos rfl, System.threads_withThread_self, List.append_assoc]
      exact htodo
    · rw [if_neg (Ne.symm hj), System.threads_withThread_of_ne sys hj, List.append_nil]
      exact htodo
  replies j := by
    have hreplies := h.replies j
    by_cases hj : j = i
    · subst hj
      rw [System.threads_withThread_self]
      exact hreplies
    · rw [System.threads_withThread_of_ne sys hj]
      exact hreplies
  standing := by
    have hstanding := h.standing
    rw [free] at hstanding
    exact hstanding

/-- A call is worked out on the table that the calls before it left. -/
lemma Ordered.compute (h : Ordered table calls past order sys)
    (held : sys.lock = some (i, .acquired call)) :
    Ordered table calls past order
      { sys with
        lock := some
          (i, .computed call (call.perform sys.table).1 (call.perform sys.table).2) } where
  order_eq := by
    rw [h.order_eq, held]
    rfl
  todo := h.todo
  replies := h.replies
  standing := by
    have hstanding := h.standing
    rw [held] at hstanding
    refine ⟨hstanding, ?_⟩
    rw [← hstanding]

/-- The table is changed to what the call left, because nobody else changed it. -/
lemma Ordered.store (h : Ordered table calls past order sys) {reply : Reply} {after : Variables}
    (held : sys.lock = some (i, .computed call reply after)) :
    Ordered table calls past order
      { sys with table := after, lock := some (i, .stored call reply) } where
  order_eq := by
    rw [h.order_eq, held]
    rfl
  todo := h.todo
  replies := h.replies
  standing := by
    have hstanding := h.standing
    rw [held] at hstanding
    exact hstanding.2

/-- A call whose changes are stored comes right after those that are over. -/
lemma Ordered.performAll_of_stored (h : Ordered table calls past order sys) {reply : Reply}
    (held : sys.lock = some (i, .stored call reply)) :
    order = past ++ [(i, call)] ∧
      performAll (callsIn order) table =
        ((performAll (callsIn past) table).1 ++ [reply], sys.table) := by
  have horder : order = past ++ [(i, call)] := by
    rw [h.order_eq, held]
    rfl
  have hperform : call.perform (performAll (callsIn past) table).2 = (reply, sys.table) := by
    have hstanding := h.standing
    rw [held] at hstanding
    exact hstanding
  have hcalls : callsIn order = callsIn past ++ [call] := by
    rw [horder, callsIn, List.map_append]
    rfl
  refine ⟨horder, ?_⟩
  rw [hcalls, performAll_concat, hperform]

/-- A thread that releases the lock has its reply, and its call is over. -/
lemma Ordered.release (h : Ordered table calls past order sys) {reply : Reply}
    (held : sys.lock = some (i, .stored call reply)) :
    Ordered table calls order order
      { sys.withThread i ⟨(sys.threads i).todo, (sys.threads i).replies ++ [reply]⟩ with
        lock := none } where
  order_eq := (List.append_nil order).symm
  todo j := by
    have htodo := h.todo j
    by_cases hj : j = i
    · subst hj
      rw [System.threads_withThread_self]
      exact htodo
    · rw [System.threads_withThread_of_ne sys hj]
      exact htodo
  -- The reply handed out is the one that the sequence of calls gets for its last call.
  replies j := by
    obtain ⟨horder, hall⟩ := h.performAll_of_stored held
    have hlength : (performAll (callsIn past) table).1.length = past.length := by
      rw [length_performAll, callsIn, List.length_map]
    have hreplies := h.replies j
    rw [hall, horder, repliesOf_concat j i call reply hlength, ← hreplies]
    by_cases hj : j = i
    · subst hj
      rw [System.threads_withThread_self, if_pos rfl]
    · rw [System.threads_withThread_of_ne sys hj, if_neg (Ne.symm hj), List.append_nil]
  standing := by
    rw [(h.performAll_of_stored held).2]
    rfl

/-- **Every step keeps the invariant.** -/
lemma ordered_step {label : Option (ι × Call)} {next : System ι}
    (h : Ordered table calls past order sys) (hstep : Step sys label next) :
    ∃ past', Ordered table calls past' (order ++ label.toList) next := by
  cases hstep with
  | acquire free next => exact ⟨past, h.acquire free next⟩
  | compute held => exact ⟨past, by simpa using h.compute held⟩
  | store held => exact ⟨past, by simpa using h.store held⟩
  | release held => exact ⟨order, by simpa using h.release held⟩

/-- **Every run keeps the invariant**, by induction on its steps. -/
theorem ordered_steps {more : List (ι × Call)} {final : System ι}
    (h : Ordered table calls past order sys) (run : Steps sys more final) :
    ∃ past', Ordered table calls past' (order ++ more) final := by
  induction run generalizing past order with
  | refl sys => exact ⟨past, by rwa [List.append_nil]⟩
  | step first rest ih =>
      obtain ⟨past', h'⟩ := ordered_step h first
      obtain ⟨past'', h''⟩ := ih h'
      exact ⟨past'', by rwa [List.append_assoc] at h''⟩

/-! ### What the threads see -/

/-- A thread has the replies to its calls, but for the one under way. -/
lemma Ordered.replies_prefix (h : Ordered table calls past order sys) (i : ι) :
    (sys.threads i).replies <+: repliesOf i order (performAll (callsIn order) table).1 := by
  have hlength : (performAll (callsIn past) table).1.length = past.length := by
    rw [length_performAll, callsIn, List.length_map]
  rw [h.replies i, h.order_eq]
  cases hlock : sys.lock with
  | none => simp only [underway, List.append_nil, List.prefix_rfl]
  | some holder =>
      obtain ⟨j, phase⟩ := holder
      have hcalls : callsIn (past ++ [(j, phase.call)]) = callsIn past ++ [phase.call] :=
        List.map_append
      rw [underway, hcalls, performAll_concat, repliesOf_concat i j _ _ hlength]
      exact List.prefix_append _ _

/-- A copy of the table is the table after some of the calls. -/
lemma Ordered.exists_take (h : Ordered table calls past order sys) {vars : Variables}
    (hvars : Reply.table vars ∈ (sys.threads i).replies) :
    ∃ k ≤ order.length, vars = (performAll (callsIn (order.take k)) table).2 := by
  rw [h.replies i] at hvars
  obtain ⟨k, hk, rfl⟩ := exists_take_of_mem (mem_of_mem_repliesOf hvars)
  rw [callsIn, List.length_map] at hk
  have htake : order.take k = past.take k := by
    rw [h.order_eq, List.take_append_of_le_length hk]
  refine ⟨k, ?_, ?_⟩
  · rw [h.order_eq, List.length_append]
    omega
  · rw [htake, callsIn, callsIn, List.map_take]

/-- At the end of a run, the calls of all threads were made one after another. -/
lemma sequential_of_finished {final : System ι}
    (run : Steps (System.start table calls) order final) (hfinished : final.Finished) :
    (∀ i, callsOf i order = calls i) ∧
      (∀ i, (final.threads i).replies = repliesOf i order (performAll (callsIn order) table).1) ∧
      final.table = (performAll (callsIn order) table).2 := by
  obtain ⟨past, h⟩ := ordered_steps (ordered_start table calls) run
  rw [List.nil_append] at h
  have horder : order = past := by
    rw [h.order_eq, hfinished.1]
    exact List.append_nil past
  have hstanding := h.standing
  rw [hfinished.1] at hstanding
  subst horder
  refine ⟨fun i => ?_, h.replies, hstanding⟩
  rw [← h.todo i, hfinished.2 i, List.append_nil]

/-- **Linearizability**: in any run of any number of threads, the calls are made in the
order in which they acquire the lock, which is the order of each thread, and at the end
all of them were made. What a thread has got so far are the replies to its calls when all
calls are made one after another, and once the lock is free, nothing is missing from them
or from the table. Every copy of the table is the table after some number of whole calls. -/
theorem linearizable {final : System ι} (run : Steps (System.start table calls) order final) :
    (∀ i, callsOf i order ++ (final.threads i).todo = calls i) ∧
      (final.Finished → ∀ i, callsOf i order = calls i) ∧
      (∀ i, (final.threads i).replies <+: repliesOf i order (performAll (callsIn order) table).1) ∧
      (∀ i vars, Reply.table vars ∈ (final.threads i).replies →
        ∃ k ≤ order.length, vars = (performAll (callsIn (order.take k)) table).2) ∧
      (final.lock = none →
        (∀ i, (final.threads i).replies = repliesOf i order (performAll (callsIn order) table).1) ∧
          final.table = (performAll (callsIn order) table).2) := by
  obtain ⟨past, h⟩ := ordered_steps (ordered_start table calls) run
  rw [List.nil_append] at h
  refine ⟨h.todo, fun hfinished i => ?_, h.replies_prefix,
    fun i vars hvars => h.exists_take hvars, fun hfree => ?_⟩
  · rw [← h.todo i, hfinished.2 i, List.append_nil]
  · have horder : order = past := by
      rw [h.order_eq, hfree]
      exact List.append_nil past
    have hstanding := h.standing
    rw [hfree] at hstanding
    subst horder
    exact ⟨h.replies, hstanding⟩

end Runs

section Machine

attribute [local instance] FloatFunctions.native

theorem linearizable_two_threads :
    ∃ final, Steps
        (System.start .empty fun first => cond first [.evaluate "x = 1"] [.snapshot])
        [(true, .evaluate "x = 1"), (false, .snapshot)] final ∧
      final.lock = none ∧
      (final.threads false).replies = repliesOf false
        [(true, .evaluate "x = 1"), (false, .snapshot)]
        (performAll [.evaluate "x = 1", .snapshot] .empty).1 := by
  have run : Steps
      (System.start .empty fun first => cond first [.evaluate "x = 1"] [.snapshot])
      [(true, .evaluate "x = 1"), (false, .snapshot)] _ :=
    .step (.acquire (i := true) rfl rfl) <| .step (.compute rfl) <| .step (.store rfl) <|
    .step (.release rfl) <| .step (.acquire (i := false) rfl rfl) <| .step (.compute rfl) <|
    .step (.store rfl) <| .step (.release rfl) <| .refl _
  exact ⟨_, run, rfl, ((linearizable run).2.2.2.2 rfl).1 false⟩

end Machine

end Shared

end Reckon
