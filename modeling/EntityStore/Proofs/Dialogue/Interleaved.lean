import EntityStore.Proofs.Dialogue.Course
import Mathlib.Data.List.Nodup

/-!
# Dialogues side by side

Several dialogues with one executor at the same time. At each moment any of them may go on by one
step: it sends its next statement and has its answer, or reports an error. `Interleaved` is all that
can come of it, for every order in which the steps can be taken; what happens carries the position of
the dialogue it happened in.

Whatever the order, every dialogue takes one of its courses, and together these are all that
happens. Where each dialogue is confined to a part of its own of the executor's state, the order
makes no difference at all (`Interleaved.alone`): each dialogue goes as if it had been alone.
-/

set_option autoImplicit false

namespace EntityStore

open Dialogue (Course)

variable {σ α : Type}

/-- What comes of some dialogues that are run side by side: the events, each with the position of
its dialogue, the result of each dialogue, and the state the executor is left in. -/
inductive Interleaved (exec : Executor σ) :
    List (Dialogue α) → σ → List (Nat × Event) → List α → σ → Prop where
  | done (results : List α) (s : σ) : Interleaved exec (results.map .done) s [] results s
  | send {tasks : List (Dialogue α)} {s s' : σ} {events : List (Nat × Event)} {results : List α}
    (i : Nat) {sql : String} {next : Answer → Dialogue α}
    (task : tasks[i]? = some (.send sql next))
    (rest : Interleaved exec (tasks.set i (next (exec s sql).1)) (exec s sql).2 events results s') :
    Interleaved exec tasks s ((i, .sent sql (exec s sql).1) :: events) results s'
  | report {tasks : List (Dialogue α)} {s s' : σ} {events : List (Nat × Event)} {results : List α}
    (i : Nat) {e : Error} {next : Dialogue α} (task : tasks[i]? = some (.report e next))
    (rest : Interleaved exec (tasks.set i next) s events results s') :
    Interleaved exec tasks s ((i, .reported e) :: events) results s'

/-! ## What happened in one of them -/

/-- What happened in the dialogue of a position. -/
def own (i : Nat) (events : List (Nat × Event)) : List Event :=
  events.filterMap fun p => if p.1 = i then some p.2 else none

section Own

variable {i j : Nat} {x : Event} {events : List (Nat × Event)}

@[simp] theorem own_cons_self : own i ((i, x) :: events) = x :: own i events := by
  simp [own]

@[simp] theorem own_cons_of_ne (h : j ≠ i) : own i ((j, x) :: events) = own i events := by
  simp [own, h]

theorem own_eq_map_filter (i : Nat) (events : List (Nat × Event)) :
    own i events = (events.filter (·.1 == i)).map Prod.snd := by
  induction events with
  | nil => rfl
  | cons p events ih =>
    obtain ⟨j, x⟩ := p
    by_cases hj : j = i
    · subst hj
      simp [ih]
    · simp [hj, ih]

/-- What happened in the first dialogues, put one after the other, is all that happened in them. -/
theorem perm_flatMap_own (events : List (Nat × Event)) (n : Nat) :
    ((List.range n).flatMap (own · events)).Perm ((events.filter (·.1 < n)).map Prod.snd) := by
  induction n with
  | zero => simp
  | succ n ih =>
    -- The events below `n + 1` are split into those below `n` and those of `n`.
    have hbelow : (events.filter (·.1 < n + 1)).filter (·.1 < n) = events.filter (·.1 < n) := by
      rw [List.filter_filter]
      refine List.filter_congr fun p _ => ?_
      rw [← Bool.decide_and, decide_eq_decide]
      omega
    have hlast : (events.filter (·.1 < n + 1)).filter (fun p => !decide (p.1 < n))
        = events.filter (·.1 == n) := by
      rw [List.filter_filter]
      refine List.filter_congr fun p _ => ?_
      rw [Bool.eq_iff_iff]
      simp only [Bool.and_eq_true, Bool.not_eq_true', decide_eq_false_iff_not, decide_eq_true_eq,
        beq_iff_eq]
      omega
    have hsplit := List.filter_append_perm (·.1 < n) (events.filter (·.1 < n + 1))
    rw [hbelow, hlast] at hsplit
    rw [List.range_succ, List.flatMap_append, List.flatMap_singleton, own_eq_map_filter n]
    refine (ih.append_right _).trans ?_
    rw [← List.map_append]
    exact hsplit.map _

end Own

namespace Interleaved

variable {exec : Executor σ} {tasks : List (Dialogue α)} {s s' : σ} {events : List (Nat × Event)}
  {results : List α}

/-- One of them sends a statement and has this answer. -/
theorem answered {s₁ : σ} (i : Nat) {sql : String} {answer : Answer} {next : Answer → Dialogue α}
    (task : tasks[i]? = some (.send sql next)) (hexec : exec s sql = (answer, s₁))
    (rest : Interleaved exec (tasks.set i (next answer)) s₁ events results s') :
    Interleaved exec tasks s ((i, .sent sql answer) :: events) results s' := by
  have hanswer : (exec s sql).1 = answer := congrArg Prod.fst hexec
  have hstate : (exec s sql).2 = s₁ := congrArg Prod.snd hexec
  rw [← hanswer, ← hstate] at rest
  rw [← hanswer]
  exact .send i task rest

theorem length_results (h : Interleaved exec tasks s events results s') :
    results.length = tasks.length := by
  induction h with
  | done results s => rw [List.length_map]
  | send i task rest ih => rw [ih, List.length_set]
  | report i task rest ih => rw [ih, List.length_set]

theorem lt_length (h : Interleaved exec tasks s events results s') :
    ∀ p ∈ events, p.1 < tasks.length := by
  induction h with
  | done results s => exact List.forall_mem_nil _
  | send i task rest ih =>
    rw [List.length_set] at ih
    exact List.forall_mem_cons.mpr ⟨(List.getElem?_eq_some_iff.mp task).1, ih⟩
  | report i task rest ih =>
    rw [List.length_set] at ih
    exact List.forall_mem_cons.mpr ⟨(List.getElem?_eq_some_iff.mp task).1, ih⟩

/-- All that happens happens in one of the dialogues. -/
theorem perm (h : Interleaved exec tasks s events results s') :
    ((List.range tasks.length).flatMap (own · events)).Perm (events.map Prod.snd) := by
  have hall : events.filter (·.1 < tasks.length) = events := by
    rw [List.filter_eq_self]
    exact fun p hp => decide_eq_true (h.lt_length p hp)
  have hperm := perm_flatMap_own events tasks.length
  rwa [hall] at hperm

/-- Where the same happens in each of the dialogues, the same happens in all of them together. -/
theorem perm_of_own {events' : List (Nat × Event)} {results' : List α} {s'' : σ}
    (h : Interleaved exec tasks s events results s')
    (h' : Interleaved exec tasks s events' results' s'') (hown : ∀ i, own i events = own i events') :
    (events.map Prod.snd).Perm (events'.map Prod.snd) := by
  have hall := List.flatMap_congr fun i (_ : i ∈ List.range tasks.length) => hown i
  exact h.perm.symm.trans ((List.Perm.of_eq hall).trans h'.perm)

theorem own_eq_nil (h : Interleaved exec tasks s events results s') {i : Nat}
    (hi : tasks.length ≤ i) : own i events = [] := by
  rw [own_eq_map_filter, List.map_eq_nil_iff, List.filter_eq_nil_iff]
  intro p hp hpi
  have hlt := h.lt_length p hp
  rw [beq_iff_eq] at hpi
  omega

/-- Every dialogue takes a course of its own. -/
theorem course (h : Interleaved exec tasks s events results s') {i : Nat} {d : Dialogue α}
    (hd : tasks[i]? = some d) : ∃ a, results[i]? = some a ∧ Course d (own i events) a := by
  induction h generalizing d with
  | done results s =>
    rw [List.getElem?_map, Option.map_eq_some_iff] at hd
    obtain ⟨a, ha, rfl⟩ := hd
    exact ⟨a, ha, .done a⟩
  | send j task rest ih =>
    -- A step of another dialogue is no event of this one and leaves it where it is.
    by_cases hji : j = i
    · subst hji
      cases task.symm.trans hd
      obtain ⟨a, ha, hcourse⟩ := ih (List.getElem?_set_self (List.getElem?_eq_some_iff.mp task).1)
      rw [own_cons_self]
      exact ⟨a, ha, .send _ hcourse⟩
    · rw [own_cons_of_ne hji]
      exact ih ((List.getElem?_set_ne hji).trans hd)
  | report j task rest ih =>
    by_cases hji : j = i
    · subst hji
      cases task.symm.trans hd
      obtain ⟨a, ha, hcourse⟩ := ih (List.getElem?_set_self (List.getElem?_eq_some_iff.mp task).1)
      rw [own_cons_self]
      exact ⟨a, ha, .report hcourse⟩
    · rw [own_cons_of_ne hji]
      exact ih ((List.getElem?_set_ne hji).trans hd)

/-! ## One after the other -/

/-- The events of the dialogues behind the first one. -/
def later (events : List (Nat × Event)) : List (Nat × Event) :=
  events.map fun p => (p.1 + 1, p.2)

theorem map_snd_later (events : List (Nat × Event)) :
    (later events).map Prod.snd = events.map Prod.snd := by
  rw [later, List.map_map]
  rfl

theorem cons_done (h : Interleaved exec tasks s events results s') (a : α) :
    Interleaved exec (.done a :: tasks) s (later events) (a :: results) s' := by
  induction h with
  | done results s => exact .done (a :: results) s
  | send i task rest ih => exact .send (i + 1) task ih
  | report i task rest ih => exact .report (i + 1) task ih

/-- The first dialogue may go on to its end before any other takes a step. -/
theorem run_cons (d : Dialogue α)
    (h : Interleaved exec tasks (d.run exec s).state events results s') :
    Interleaved exec (d :: tasks) s ((d.run exec s).events.map (0, ·) ++ later events)
      ((d.run exec s).result :: results) s' := by
  induction d generalizing s with
  | done a => exact h.cons_done a
  | send sql next ih => exact .send 0 rfl (ih _ h)
  | report e next ih => exact .report 0 rfl (ih h)

end Interleaved

/-! ## Dialogues confined to a part of the state -/

section Confined

variable {T τ : Type} {exec : Executor (T → τ)} {t : T} {s s' : T → τ}

/-- Whether a statement is answered out of one part of the state and changes no other part, as long
as this part is as it is now. -/
structure Confined (exec : Executor (T → τ)) (t : T) (s : T → τ) (sql : String) : Prop where
  answer : ∀ s', s' t = s t → (exec s' sql).1 = (exec s sql).1
  effect : ∀ s', s' t = s t → (exec s' sql).2 t = (exec s sql).2 t
  others : ∀ s', s' t = s t → ∀ u, u ≠ t → (exec s' sql).2 u = s' u

/-- Whether every statement that a dialogue sends when it is run alone is confined to one part of
the state. -/
def Dialogue.ConfinedTo (exec : Executor (T → τ)) (t : T) : Dialogue α → (T → τ) → Prop
  | .done _, _ => True
  | .send sql next, s =>
    Confined exec t s sql ∧ (next (exec s sql).1).ConfinedTo exec t (exec s sql).2
  | .report _ next, s => next.ConfinedTo exec t s

/-- A confined dialogue goes the same way wherever its own part of the state is the same. -/
theorem Dialogue.ConfinedTo.congr {d : Dialogue α} (h : d.ConfinedTo exec t s) (hs : s' t = s t) :
    d.ConfinedTo exec t s' ∧ (d.run exec s').events = (d.run exec s).events
      ∧ (d.run exec s').result = (d.run exec s).result
      ∧ (d.run exec s').state t = (d.run exec s).state t := by
  induction d generalizing s s' with
  | done a => exact ⟨trivial, rfl, rfl, hs⟩
  | send sql next ih =>
    obtain ⟨hsql, hnext⟩ := h
    -- Both states change the same way in `t`, so the dialogue goes on the same way from both.
    obtain ⟨hconfined, hevents, hresult, hstate⟩ := ih _ hnext (hsql.effect s' hs)
    have hanswer := hsql.answer s' hs
    refine ⟨⟨⟨?_, ?_, ?_⟩, by rwa [hanswer]⟩, ?_, ?_, ?_⟩
    · intro s'' hs''
      rw [hsql.answer s'' (hs''.trans hs), hanswer]
    · intro s'' hs''
      rw [hsql.effect s'' (hs''.trans hs), hsql.effect s' hs]
    · exact fun s'' hs'' => hsql.others s'' (hs''.trans hs)
    · simp only [run, hanswer, hevents]
    · simp only [run, hanswer, hresult]
    · simp only [run, hanswer, hstate]
  | report e next ih =>
    obtain ⟨hconfined, hevents, hresult, hstate⟩ := ih h hs
    exact ⟨hconfined, congrArg (Event.reported e :: ·) hevents, hresult, hstate⟩

variable {tasks : List (Dialogue α)} {ts : List T} {events : List (Nat × Event)} {results : List α}

/-- Whether each of some dialogues is confined to a part of its own. -/
def AllConfined (exec : Executor (T → τ)) (tasks : List (Dialogue α)) (ts : List T) (s : T → τ) :
    Prop :=
  ∀ (i : Nat) (d : Dialogue α) (t : T), tasks[i]? = some d → ts[i]? = some t →
    d.ConfinedTo exec t s

/-- Whether each of some dialogues went as if it had been alone, and nothing else was changed. -/
structure Alone (exec : Executor (T → τ)) (tasks : List (Dialogue α)) (ts : List T) (s : T → τ)
    (events : List (Nat × Event)) (results : List α) (s' : T → τ) : Prop where
  each : ∀ (i : Nat) (d : Dialogue α) (t : T), tasks[i]? = some d → ts[i]? = some t →
    own i events = (d.run exec s).events ∧ results[i]? = some (d.run exec s).result
      ∧ s' t = (d.run exec s).state t
  outside : ∀ u, u ∉ ts → s' u = s u

section Step

variable {j : Nat} {d d' : Dialogue α} {x : Event} {s₁ : T → τ} (hts : ts.Nodup)
  (task : tasks[j]? = some d) (ht : ts[j]? = some t) (hother : ∀ u, u ≠ t → s₁ u = s u)

include hts ht

/-- Another dialogue has another part. -/
theorem ne_of_getElem?_ne {i : Nat} {u : T} (hi : i ≠ j) (hu : ts[i]? = some u) : u ≠ t := by
  rintro rfl
  have hlt := (List.getElem?_eq_some_iff.mp hu).1
  exact hi ((List.getElem?_inj hlt hts).mp (hu.trans ht.symm))

include task hother

/-- A step of one dialogue that is confined and stays so leaves all of them confined. -/
theorem AllConfined.step (h : AllConfined exec tasks ts s) (hd' : d'.ConfinedTo exec t s₁) :
    AllConfined exec (tasks.set j d') ts s₁ := by
  intro i f u hf hu
  by_cases hi : i = j
  · subst hi
    rw [List.getElem?_set_self (List.getElem?_eq_some_iff.mp task).1] at hf
    cases hf
    cases ht.symm.trans hu
    exact hd'
  · -- The step has not changed the part of another dialogue.
    rw [List.getElem?_set_ne (Ne.symm hi)] at hf
    exact ((h i f u hf hu).congr (hother u (ne_of_getElem?_ne hts ht hi hu))).1

/-- If after a step of one dialogue all go on as if alone, and so did this one, all went as if
alone. -/
theorem Alone.step (hconfined : AllConfined exec tasks ts s)
    (h : Alone exec (tasks.set j d') ts s₁ events results s')
    (hevents : (d.run exec s).events = x :: (d'.run exec s₁).events)
    (hresult : (d.run exec s).result = (d'.run exec s₁).result)
    (hstate : (d.run exec s).state = (d'.run exec s₁).state) :
    Alone exec tasks ts s ((j, x) :: events) results s' := by
  refine ⟨fun i f u hf hu => ?_, fun u hu => ?_⟩
  · by_cases hi : i = j
    · subst hi
      cases task.symm.trans hf
      have hset := List.getElem?_set_self (a := d') (List.getElem?_eq_some_iff.mp task).1
      rw [own_cons_self, hevents, hresult, hstate]
      obtain ⟨hown, hrest⟩ := h.each i d' u hset hu
      exact ⟨congrArg (x :: ·) hown, hrest⟩
    · -- Another dialogue would have gone the same way from the state before the step.
      obtain ⟨-, hevents', hresult', hstate'⟩ :=
        (hconfined i f u hf hu).congr (hother u (ne_of_getElem?_ne hts ht hi hu))
      rw [own_cons_of_ne (Ne.symm hi), ← hevents', ← hresult', ← hstate']
      exact h.each i f u ((List.getElem?_set_ne (Ne.symm hi)).trans hf) hu
  · rw [h.outside u hu, hother u]
    rintro rfl
    exact hu (List.mem_of_getElem? ht)

end Step

/-- Side by side with others that are confined to other parts of the state, every dialogue goes as
if it were alone, and what belongs to none of them stays as it is. -/
theorem Interleaved.alone (h : Interleaved exec tasks s events results s') (hts : ts.Nodup)
    (hlength : tasks.length = ts.length) (hconfined : AllConfined exec tasks ts s) :
    Alone exec tasks ts s events results s' := by
  have hpart : ∀ {tasks : List (Dialogue α)} {j : Nat} {d : Dialogue α},
      tasks.length = ts.length → tasks[j]? = some d → ∃ t, ts[j]? = some t := by
    intro tasks j d hlength hd
    have hj := (List.getElem?_eq_some_iff.mp hd).1
    exact ⟨ts[j], List.getElem?_eq_getElem (hlength ▸ hj)⟩
  -- Each step leaves all dialogues confined, and what they do alone from the state behind the step
  -- is the rest of what they do alone from the state before it.
  induction h with
  | done results s =>
    refine ⟨fun i d t hd _ => ?_, fun u _ => rfl⟩
    rw [List.getElem?_map, Option.map_eq_some_iff] at hd
    obtain ⟨a, ha, rfl⟩ := hd
    exact ⟨rfl, ha, rfl⟩
  | @send tasks s s' events results j sql next task rest ih =>
    obtain ⟨t, ht⟩ := hpart hlength task
    obtain ⟨hsql, hnext⟩ := hconfined j _ t task ht
    have hother := hsql.others s rfl
    have hrest := ih (by rwa [List.length_set]) (hconfined.step hts task ht hother hnext)
    exact hrest.step hts task ht hother hconfined rfl rfl rfl
  | @report tasks s s' events results j e next task rest ih =>
    obtain ⟨t, ht⟩ := hpart hlength task
    have hother : ∀ u, u ≠ t → s u = s u := fun _ _ => rfl
    have hnext := hconfined j _ t task ht
    have hrest := ih (by rwa [List.length_set]) (hconfined.step hts task ht hother hnext)
    exact hrest.step hts task ht hother hconfined rfl rfl rfl

/-- In whatever two orders confined dialogues are taken, the same happens in each of them, and they
come to the same in the end. -/
theorem Interleaved.agree {events' : List (Nat × Event)} {results' : List α} {s'' : T → τ}
    (h : Interleaved exec tasks s events results s')
    (h' : Interleaved exec tasks s events' results' s'') (hts : ts.Nodup)
    (hlength : tasks.length = ts.length) (hconfined : AllConfined exec tasks ts s) :
    (∀ i, own i events = own i events') ∧ results = results' ∧ s' = s'' := by
  have halone := h.alone hts hlength hconfined
  have halone' := h'.alone hts hlength hconfined
  have hpart : ∀ {i : Nat} {t : T}, ts[i]? = some t → ∃ d, tasks[i]? = some d := by
    intro i t ht
    have hi := (List.getElem?_eq_some_iff.mp ht).1
    exact ⟨tasks[i], List.getElem?_eq_getElem (hlength ▸ hi)⟩
  have hsame : ∀ {i : Nat} {t : T}, ts[i]? = some t →
      own i events = own i events' ∧ results[i]? = results'[i]? ∧ s' t = s'' t := by
    intro i t ht
    obtain ⟨d, hd⟩ := hpart ht
    obtain ⟨hown, hresult, hstate⟩ := halone.each i d t hd ht
    obtain ⟨hown', hresult', hstate'⟩ := halone'.each i d t hd ht
    exact ⟨hown.trans hown'.symm, hresult.trans hresult'.symm, hstate.trans hstate'.symm⟩
  -- Positions behind the last dialogue and parts of none of them are left over.
  refine ⟨fun i => ?_, List.ext_getElem? fun i => ?_, funext fun u => ?_⟩
  · cases ht : ts[i]? with
    | some t => exact (hsame ht).1
    | none =>
      have hi : tasks.length ≤ i := hlength ▸ List.getElem?_eq_none_iff.mp ht
      rw [h.own_eq_nil hi, h'.own_eq_nil hi]
  · cases ht : ts[i]? with
    | some t => exact (hsame ht).2.1
    | none =>
      have hi : tasks.length ≤ i := hlength ▸ List.getElem?_eq_none_iff.mp ht
      rw [List.getElem?_eq_none (h.length_results ▸ hi),
        List.getElem?_eq_none (h'.length_results ▸ hi)]
  · by_cases hu : u ∈ ts
    · obtain ⟨i, hi⟩ := List.mem_iff_getElem?.mp hu
      exact (hsame hi).2.2
    · rw [halone.outside u hu, halone'.outside u hu]

end Confined

end EntityStore
