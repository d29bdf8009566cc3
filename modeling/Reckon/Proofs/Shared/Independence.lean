import Reckon.Proofs.Shared.Linearizability
import Reckon.Proofs.Statement.Dependence

/-!
Threads on variables of their own.

If no thread assigns to a name that another thread mentions, then a thread
cannot tell whether the others run: what it reads is what it wrote itself.
So each thread is compared with a copy of it that has a table for itself.
The shared table and the table of the copy agree in all names of the
thread, which every call of any thread keeps up.

* `Independent`: no thread assigns to a name of another one;
* `agreeOn_evaluate_self` and `agreeOn_evaluate_other`: a call keeps the
  agreement of its own thread and of any other one with its copy;
* `evaluate_comm`: two statements of independent threads may be exchanged;
* `replies_eq_alone`: by induction, any sequence of calls keeps the
  agreement, and gives each thread the replies of its copy;
* `get?_performAll`: what the table holds after all calls, name by name;
* `independent_threads`: the main statement, for all runs.
-/

namespace Reckon.Shared

/-! ### Statements that do not touch each other's names -/

/-- The name stands in one of the texts. -/
def MentionedIn (texts : List String) (name : String) : Prop := ∃ t ∈ texts, Mentions t name

/-- One of the texts assigns to the name. -/
def AssignedIn (texts : List String) (name : String) : Prop := ∃ t ∈ texts, target? t = some name

/-- No name that a thread assigns to stands in a text of another thread. -/
def Independent {ι : Type} (texts : ι → List String) : Prop :=
  ∀ ⦃i j : ι⦄, i ≠ j → ∀ name, AssignedIn (texts i) name → ¬ MentionedIn (texts j) name

/-- The calls that evaluate the texts. -/
def evaluations (texts : List String) : List Call := texts.map .evaluate

lemma AssignedIn.mentionedIn {texts : List String} {name : String} (h : AssignedIn texts name) :
    MentionedIn texts name := by
  obtain ⟨t, ht, hname⟩ := h
  exact ⟨t, ht, mentions_of_target? hname⟩

/-! ### One call -/

section Call

variable [FloatFunctions] {ι : Type} {texts : ι → List String} {table alone : Variables}
  {i j : ι} {t u : String}

/-- A thread and its copy have the same result, and still agree after it. -/
lemma agreeOn_evaluate_self (ht : t ∈ texts i)
    (h : table.AgreeOn (MentionedIn (texts i)) alone) :
    (evaluate t table).1 = (evaluate t alone).1 ∧
      (evaluate t table).2.AgreeOn (MentionedIn (texts i)) (evaluate t alone).2 := by
  have hagree : table.AgreeOn (Mentions t) alone := fun name hname => h name ⟨t, ht, hname⟩
  obtain ⟨hresult, change, htable, halone, -⟩ := evaluate_agree rfl hagree
  refine ⟨hresult, fun name hname => ?_⟩
  rw [htable, halone]
  exact Variables.get?_write_congr (h name hname)

/-- No other thread takes notice. -/
lemma agreeOn_evaluate_other (hindep : Independent texts) (hij : i ≠ j) (ht : t ∈ texts j)
    (h : table.AgreeOn (MentionedIn (texts i)) alone) :
    (evaluate t table).2.AgreeOn (MentionedIn (texts i)) alone := by
  intro name hname
  have hassigned : target? t ≠ some name := fun htarget =>
    hindep (Ne.symm hij) name ⟨t, ht, htarget⟩ hname
  rw [get?_evaluate_of_ne hassigned]
  exact h name hname

/-- Two statements of different threads may be exchanged, whether or not they succeed. -/
lemma evaluate_comm (hindep : Independent texts) (hij : i ≠ j) (ht : t ∈ texts i)
    (hu : u ∈ texts j) (vars : Variables) :
    (evaluate u (evaluate t vars).2).1 = (evaluate u vars).1 ∧
      (evaluate t (evaluate u vars).2).1 = (evaluate t vars).1 ∧
      (evaluate u (evaluate t vars).2).2 = (evaluate t (evaluate u vars).2).2 := by
  -- Neither of the two statements changes a name that the other one mentions.
  have hagree : ∀ {k l : ι} {a b : String}, k ≠ l → a ∈ texts k → b ∈ texts l →
      (evaluate a vars).2.AgreeOn (Mentions b) vars := by
    intro k l a b hkl ha hb name hname
    exact get?_evaluate_of_ne (fun htarget => hindep hkl name ⟨a, ha, htarget⟩ ⟨b, hb, hname⟩) vars
  obtain ⟨hut, c, huc, hcu, hctarget⟩ := evaluate_agree rfl (hagree hij ht hu)
  obtain ⟨htu, d, htd, hdt, hdtarget⟩ := evaluate_agree rfl (hagree (Ne.symm hij) hu ht)
  refine ⟨hut, htu, ?_⟩
  rw [huc, htd, hcu, hdt]
  refine Variables.write_write_comm fun p hp q hq hpq => ?_
  have hmentioned : Mentions u q.1 := mentions_of_target? (hctarget q hq)
  exact hindep hij p.1 ⟨t, ht, hdtarget p hp⟩ ⟨u, hu, hpq ▸ hmentioned⟩

end Call

/-! ### All calls, and each thread with a table for itself -/

section Runs

variable {ι : Type} [DecidableEq ι]

lemma callsOf_cons (i j : ι) (call : Call) (order : List (ι × Call)) :
    callsOf i ((j, call) :: order) =
      if j = i then call :: callsOf i order else callsOf i order := by
  rw [callsOf, callsOf, List.filter_cons]
  by_cases hj : j = i <;> simp [callsIn, hj]

lemma repliesOf_cons (i j : ι) (call : Call) (reply : Reply) (order : List (ι × Call))
    (replies : List Reply) :
    repliesOf i ((j, call) :: order) (reply :: replies) =
      if j = i then reply :: repliesOf i order replies else repliesOf i order replies := by
  rw [repliesOf, repliesOf, List.zip_cons_cons, List.filter_cons]
  by_cases hj : j = i <;> simp [hj]

variable [FloatFunctions] {texts : ι → List String} {table alone : Variables} {i : ι}

lemma performAll_evaluate (t : String) (calls : List Call) (table : Variables) :
    performAll (.evaluate t :: calls) table =
      (.result (evaluate t table).1 :: (performAll calls (evaluate t table).2).1,
        (performAll calls (evaluate t table).2).2) :=
  rfl

/-- **Any sequence of calls keeps the agreement**: each thread has the replies that its
calls have on a table for themselves, and at the end it still agrees with its copy. -/
lemma replies_eq_alone (hindep : Independent texts) {order : List (ι × Call)}
    (horder : ∀ j, ∀ call ∈ callsOf j order, call ∈ evaluations (texts j))
    (h : table.AgreeOn (MentionedIn (texts i)) alone) :
    repliesOf i order (performAll (callsIn order) table).1 =
        (performAll (callsOf i order) alone).1 ∧
      (performAll (callsIn order) table).2.AgreeOn (MentionedIn (texts i))
        (performAll (callsOf i order) alone).2 := by
  induction order generalizing table alone with
  | nil => exact ⟨rfl, h⟩
  | cons first rest ih =>
      obtain ⟨j, call⟩ := first
      have hcall : call ∈ evaluations (texts j) := horder j call (by simp [callsOf_cons])
      obtain ⟨t, ht, rfl⟩ := List.mem_map.1 hcall
      have hrest : ∀ k, ∀ call ∈ callsOf k rest, call ∈ evaluations (texts k) := by
        intro k call hmem
        refine horder k call ?_
        rw [callsOf_cons]
        split_ifs
        · exact List.mem_cons_of_mem _ hmem
        · exact hmem
      have hall : callsIn ((j, .evaluate t) :: rest) = .evaluate t :: callsIn rest := rfl
      rw [hall, performAll_evaluate, repliesOf_cons, callsOf_cons]
      by_cases hj : j = i
      · subst hj
        obtain ⟨hresult, hagree⟩ := agreeOn_evaluate_self ht h
        obtain ⟨hreplies, hfinal⟩ := ih hrest hagree
        rw [if_pos rfl, if_pos rfl, performAll_evaluate, hresult, hreplies]
        exact ⟨rfl, hfinal⟩
      · rw [if_neg hj, if_neg hj]
        exact ih hrest (agreeOn_evaluate_other hindep (Ne.symm hj) ht h)

/-! ### The table at the end -/

/-- Where no call assigns to a name, its value stays. -/
lemma get?_performAll_of_not_assigned {calls : List Call} {name : String}
    (h : ∀ t, .evaluate t ∈ calls → target? t ≠ some name) (table : Variables) :
    (performAll calls table).2.get? name = table.get? name := by
  induction calls generalizing table with
  | nil => rfl
  | cons call rest ih =>
      have hrest : ∀ t, .evaluate t ∈ rest → target? t ≠ some name := fun t ht =>
        h t (List.mem_cons_of_mem _ ht)
      show (performAll rest (call.perform table).2).2.get? name = table.get? name
      rw [ih hrest]
      cases call with
      | evaluate t => exact get?_evaluate_of_ne (h t List.mem_cons_self) table
      | snapshot => rfl

/-- **The table at the end**: a variable that a thread assigns to has the value that the
thread would have given it alone, and any other one the value that it had at the start. -/
lemma get?_performAll (hindep : Independent texts) {order : List (ι × Call)}
    (horder : ∀ i, callsOf i order = evaluations (texts i)) (table : Variables) (name : String) :
    (∀ i, AssignedIn (texts i) name → (performAll (callsIn order) table).2.get? name =
        (performAll (evaluations (texts i)) table).2.get? name) ∧
      ((∀ i, ¬ AssignedIn (texts i) name) →
        (performAll (callsIn order) table).2.get? name = table.get? name) := by
  constructor
  · intro i hassigned
    have hsame : table.AgreeOn (MentionedIn (texts i)) table := fun _ _ => rfl
    have hagree := (replies_eq_alone hindep (fun j call hcall => horder j ▸ hcall) hsame).2
    rw [horder i] at hagree
    exact hagree name hassigned.mentionedIn
  · intro hassigned
    refine get?_performAll_of_not_assigned (fun t ht htarget => ?_) table
    obtain ⟨p, hp, hcall⟩ := List.mem_map.1 ht
    have hown : p.2 ∈ callsOf p.1 order :=
      List.mem_map_of_mem (List.mem_filter.2 ⟨hp, by simp⟩)
    rw [horder p.1, hcall] at hown
    obtain ⟨u, hu, heq⟩ := List.mem_map.1 hown
    cases heq
    exact hassigned p.1 ⟨t, hu, htarget⟩

/-! ### All runs -/

/-- **Threads on variables of their own** do not affect each other: at the end of a run,
whatever its steps, each thread has the replies that its calls have on the table alone, and
every run ends with the same table. Two statements of different threads may be exchanged
anywhere, also where one of them fails or both. -/
theorem independent_threads (hindep : Independent texts) {order : List (ι × Call)}
    {final : System ι}
    (run : Steps (System.start table fun i => evaluations (texts i)) order final)
    (hfinished : final.Finished) :
    (∀ i, (final.threads i).replies = (performAll (evaluations (texts i)) table).1) ∧
      (∀ order' final',
        Steps (System.start table fun i => evaluations (texts i)) order' final' →
          final'.Finished → final'.table = final.table) ∧
      ∀ i j, i ≠ j → ∀ t ∈ texts i, ∀ u ∈ texts j, ∀ vars,
        (evaluate u (evaluate t vars).2).1 = (evaluate u vars).1 ∧
          (evaluate t (evaluate u vars).2).1 = (evaluate t vars).1 ∧
          (evaluate u (evaluate t vars).2).2 = (evaluate t (evaluate u vars).2).2 := by
  obtain ⟨horder, hreplies, htable⟩ := sequential_of_finished run hfinished
  refine ⟨fun i => ?_, fun order' final' run' hfinished' => ?_, fun i j hij t ht u hu vars =>
    evaluate_comm hindep hij ht hu vars⟩
  · have hsame : table.AgreeOn (MentionedIn (texts i)) table := fun _ _ => rfl
    rw [hreplies i, (replies_eq_alone hindep (fun j call hcall => horder j ▸ hcall) hsame).1,
      horder i]
  · obtain ⟨horder', -, htable'⟩ := sequential_of_finished run' hfinished'
    refine Variables.ext fun name => ?_
    obtain ⟨hassigned, hother⟩ := get?_performAll hindep horder table name
    obtain ⟨hassigned', hother'⟩ := get?_performAll hindep horder' table name
    rw [htable, htable']
    by_cases h : ∃ i, AssignedIn (texts i) name
    · obtain ⟨i, hi⟩ := h
      rw [hassigned i hi, hassigned' i hi]
    · have hnone : ∀ i, ¬ AssignedIn (texts i) name := fun i hi => h ⟨i, hi⟩
      rw [hother hnone, hother' hnone]

end Runs

section Machine

attribute [local instance] FloatFunctions.native

theorem independent_threads_interleaved :
    Independent (fun first => cond first ["x = 1", "x"] ["y = 2 / 0"]) ∧
      ∃ final, Steps
          (System.start .empty fun first =>
            evaluations (cond first ["x = 1", "x"] ["y = 2 / 0"]))
          [(true, .evaluate "x = 1"), (false, .evaluate "y = 2 / 0"), (true, .evaluate "x")]
          final ∧
        final.Finished ∧
        (final.threads true).replies = [.result (.ok none), .result (.ok (some (.int 1)))] ∧
        (final.threads false).replies = [.result (.error .integerDivisionByZero)] := by
  have hindep : Independent (fun first => cond first ["x = 1", "x"] ["y = 2 / 0"]) := by
    have hfirst : ∀ name, MentionedIn ["x = 1", "x"] name → name = "x" := by
      have hassignment : (Lexer.tokenize "x = 1").1 = [.ident "x", .assign, .int 1, .eof] := by
        with_unfolding_all rfl
      have hname : (Lexer.tokenize "x").1 = [.ident "x", .eof] := by with_unfolding_all rfl
      simp [MentionedIn, Mentions, hassignment, hname]
    have hsecond : ∀ name, MentionedIn ["y = 2 / 0"] name → name = "y" := by
      have hassignment : (Lexer.tokenize "y = 2 / 0").1 =
          [.ident "y", .assign, .int 2, .arith .div, .int 0, .eof] := by with_unfolding_all rfl
      simp [MentionedIn, Mentions, hassignment]
    rintro (_ | _) (_ | _) hij name hassigned hmentioned
    · exact hij rfl
    · have hname : "y" = "x" :=
        (hsecond name hassigned.mentionedIn).symm.trans (hfirst name hmentioned)
      exact absurd hname (by decide)
    · have hname : "x" = "y" :=
        (hfirst name hassigned.mentionedIn).symm.trans (hsecond name hmentioned)
      exact absurd hname (by decide)
    · exact hij rfl
  obtain ⟨final, run, hfinished⟩ : ∃ final, Steps
      (System.start .empty fun first => evaluations (cond first ["x = 1", "x"] ["y = 2 / 0"]))
      [(true, .evaluate "x = 1"), (false, .evaluate "y = 2 / 0"), (true, .evaluate "x")] final ∧
      final.Finished :=
    ⟨_, .step (.acquire (i := true) rfl rfl) <| .step (.compute rfl) <| .step (.store rfl) <|
      .step (.release rfl) <| .step (.acquire (i := false) rfl rfl) <| .step (.compute rfl) <|
      .step (.store rfl) <| .step (.release rfl) <| .step (.acquire (i := true) rfl rfl) <|
      .step (.compute rfl) <| .step (.store rfl) <| .step (.release rfl) <| .refl _,
      rfl, Bool.rec rfl rfl⟩
  obtain ⟨hreplies, -, -⟩ := independent_threads hindep run hfinished
  refine ⟨hindep, final, run, hfinished, (hreplies true).trans ?_, (hreplies false).trans ?_⟩
  · with_unfolding_all rfl
  · with_unfolding_all rfl

end Machine

end Reckon.Shared
