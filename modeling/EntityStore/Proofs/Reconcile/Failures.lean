import EntityStore.Proofs.Dialogue.Interleaved
import EntityStore.Proofs.Reconcile.Parts
import Mathlib.Data.List.ReduceOption

/-!
# What failures do to a reconciliation

A statement that fails stops nothing but what cannot be done without its answer. Without the columns
of a table nothing is done to the table, and without its indexes nothing to its indexes; every other
statement is sent whatever became of those before it (`Visit`). Every failure is reported once and
nothing else is, and the last failure of the last table that had one is the result (`Accounted`).

This is said of the courses of a reconciliation, so it holds for any answers. It holds as well when
the tables are reconciled side by side, in whatever order their statements are taken; one table after
the other is one of these orders.
-/

set_option autoImplicit false

namespace EntityStore

open Dialogue (Course)

namespace Reconcile

variable {σ : Type} {exec : Executor σ} {events : List Event} {result : Option Error}

/-! ## One table -/

/-- The statements that change the indexes of a table which has these. -/
def indexStatements (e : Entity) (indexes : List LiveIndex) : List String :=
  (IndexChange.between e indexes).map fun change => change.text ++ ";"

/-- The statement, if there is any, that alters a table which has these columns. -/
def columnStatements (e : Entity) (columns : List LiveColumn) : List String :=
  (e.alterTable? (ColumnChange.between e columns)).toList.map (· ++ ";")

/-- The calls that reconciling one table comes to, by the answers to the two queries. The answers to
all other statements are open. -/
inductive Visit (e : Entity) : List (String × Answer) → Prop where
  /-- The columns cannot be read: nothing else is sent. -/
  | unread (err : Error) : Visit e [(Catalog.columnsQuery e, .error err)]
  /-- There is no table: it is created with all its indexes. -/
  | created (rows : List Row) (changes : List (String × Answer))
    (missing : LiveColumn.ofRows rows = [])
    (sent : statementsOf changes = (e.createTable ++ ";") :: indexStatements e []) :
    Visit e ((Catalog.columnsQuery e, .ok rows) :: changes)
  /-- The indexes cannot be read: the columns have been altered, the indexes are not. -/
  | unlisted (rows : List Row) (altered : List (String × Answer)) (err : Error)
    (found : LiveColumn.ofRows rows ≠ [])
    (sent : statementsOf altered = columnStatements e (LiveColumn.ofRows rows)) :
    Visit e ((Catalog.columnsQuery e, .ok rows)
      :: (altered ++ [(Catalog.indexesQuery e, .error err)]))
  /-- Columns and indexes are altered. -/
  | altered (rows rows' : List Row) (altered indexed : List (String × Answer))
    (found : LiveColumn.ofRows rows ≠ [])
    (sent : statementsOf altered = columnStatements e (LiveColumn.ofRows rows))
    (sent' : statementsOf indexed = indexStatements e (LiveIndex.ofRows rows')) :
    Visit e ((Catalog.columnsQuery e, .ok rows)
      :: (altered ++ (Catalog.indexesQuery e, .ok rows') :: indexed))

theorem visit_entity {e : Entity} (h : Course (entity e) events result) :
    Visit e (calls events) ∧ Accounted events result := by
  obtain ⟨answer, rest, rfl, hrest⟩ := h.of_ask
  cases answer with
  | error err =>
    obtain ⟨rest, rfl, hlast⟩ := hrest.of_tell
    obtain ⟨rfl, rfl⟩ := hlast.of_pure
    exact ⟨.unread err, .failed _ err⟩
  | ok rows =>
    -- From here on the columns are known, and the statements that do not need the indexes are sent.
    by_cases hrows : LiveColumn.ofRows rows = []
    · simp only [hrows, List.isEmpty_nil, if_true] at hrest
      obtain ⟨first, more, a, rfl, hcreated, hmore⟩ := hrest.of_bind
      obtain ⟨rest, last, b, rfl, hindexed, hlast⟩ := hmore.of_bind
      obtain ⟨rfl, rfl⟩ := hlast.of_pure
      have hdoes := (does_attempt hcreated).append (does_applyIndexes hindexed)
      rw [List.append_nil]
      exact ⟨.created rows _ hrows hdoes.sent, hdoes.accounted.answered_cons _ rows⟩
    · have hfound : (LiveColumn.ofRows rows).isEmpty = false := by simpa using hrows
      simp only [hfound, Bool.false_eq_true, if_false] at hrest
      obtain ⟨first, more, a, rfl, haltered, hmore⟩ := hrest.of_bind
      obtain ⟨answer, rest, rfl, hlisted⟩ := hmore.of_ask
      have hdoes := does_applyColumns haltered
      cases answer with
      | error err =>
        obtain ⟨rest, rfl, hlast⟩ := hlisted.of_tell
        obtain ⟨rfl, rfl⟩ := hlast.of_pure
        refine ⟨?_, (hdoes.accounted.append (.failed _ err)).answered_cons _ rows⟩
        rw [calls_sent, calls_append]
        exact .unlisted rows _ err hrows hdoes.sent
      | ok rows' =>
        obtain ⟨indexed, last, b, rfl, hindexed, hlast⟩ := hlisted.of_bind
        obtain ⟨rfl, rfl⟩ := hlast.of_pure
        have hdoes' := does_applyIndexes hindexed
        rw [List.append_nil]
        refine ⟨?_, (hdoes.accounted.append
          (hdoes'.accounted.answered_cons _ rows')).answered_cons _ rows⟩
        rw [calls_sent, calls_append, calls_sent]
        exact .altered rows rows' _ _ hrows hdoes.sent hdoes'.sent

/-! ## All tables, one after the other -/

/-- The last failure of those that had one. -/
def lastError (results : List (Option Error)) : Option Error := results.reduceOption.getLast?

theorem lastError_cons (first : Option Error) (rest : List (Option Error)) :
    lastError (first :: rest) = (lastError rest <|> first) := by
  cases first with
  | none =>
    rw [Option.orElse_eq_orElse, Option.orElse_eq_or, Option.or_none]
    rfl
  | some err =>
    rw [lastError, List.reduceOption_cons_of_some, List.getLast?_cons, Option.orElse_eq_orElse,
      Option.orElse_eq_or, lastError]
    cases rest.reduceOption.getLast? <;> rfl

theorem run_entities_cons {e : Entity} {es : List Entity} {s : σ} {first rest : Run σ (Option Error)}
    (hfirst : (entity e).run exec s = first) (hrest : (entities es).run exec first.state = rest) :
    (entities (e :: es)).run exec s
      = ⟨rest.result <|> first.result, first.events ++ rest.events, rest.state⟩ := by
  subst hfirst hrest
  have hbind := Dialogue.run_bind exec (entity e)
    (fun first => (entities es).bind fun rest => .done (rest <|> first)) s
  refine hbind.trans ?_
  simp only [Dialogue.run_bind, Dialogue.run, List.append_nil]

/-- Reconciling one table after the other is a way of reconciling them side by side. -/
theorem interleaved_entities (exec : Executor σ) (es : List Entity) (s : σ) :
    ∃ events results s', Interleaved exec (es.map entity) s events results s'
      ∧ (entities es).run exec s = ⟨lastError results, events.map Prod.snd, s'⟩ := by
  induction es generalizing s with
  | nil => exact ⟨[], [], s, .done [] s, rfl⟩
  | cons e es ih =>
    obtain ⟨events, results, s', hrest, hrun⟩ := ih ((entity e).run exec s).state
    refine ⟨_, _, s', hrest.run_cons (entity e), ?_⟩
    rw [run_entities_cons rfl hrun, lastError_cons, List.map_append, List.map_map,
      Interleaved.map_snd_later]
    simp only [Function.comp_def, List.map_id']

/-! ## All tables, side by side -/

/-- The last error of all is the last error of the last that had one. -/
theorem lastError_map_getLast? {ι : Type} (f : ι → List Error) (is : List ι) :
    lastError (is.map fun i => (f i).getLast?) = (is.flatMap f).getLast? := by
  induction is with
  | nil => rfl
  | cons i is ih =>
    rw [List.map_cons, lastError_cons, ih, List.flatMap_cons, List.getLast?_append,
      Option.orElse_eq_orElse, Option.orElse_eq_or]

section Interleaved

variable {es : List Entity} {s s' : σ} {events : List (Nat × Event)}
  {results : List (Option Error)} (h : Interleaved exec (es.map entity) s events results s')

include h

/-- Every table is seen to, and its failures are accounted for. -/
theorem visit_own {i : Nat} {e : Entity} (he : es[i]? = some e) :
    Visit e (calls (own i events)) ∧ ∃ a, results[i]? = some a ∧ Accounted (own i events) a := by
  obtain ⟨a, ha, hcourse⟩ := h.course (List.getElem?_map.trans (congrArg (Option.map entity) he))
  obtain ⟨hvisit, haccounted⟩ := visit_entity hcourse
  exact ⟨hvisit, a, ha, haccounted⟩

theorem results_eq :
    results = (List.range es.length).map fun i => (failures (own i events)).getLast? := by
  have hlength : results.length = es.length := h.length_results.trans (List.length_map _)
  refine List.ext_getElem? fun i => ?_
  cases he : es[i]? with
  | none =>
    have hi := List.getElem?_eq_none_iff.mp he
    rw [List.getElem?_eq_none (hlength ▸ hi), List.getElem?_eq_none (by simpa using hi)]
  | some e =>
    obtain ⟨-, a, ha, haccounted⟩ := visit_own h he
    have hi := (List.getElem?_eq_some_iff.mp he).1
    rw [ha, haccounted.result, List.getElem?_map, List.getElem?_range hi, Option.map_some]

theorem reports_own (i : Nat) : reports (own i events) = failures (own i events) := by
  cases he : es[i]? with
  | some e =>
    obtain ⟨-, a, -, haccounted⟩ := visit_own h he
    exact haccounted.reported
  | none =>
    have hi : (es.map entity).length ≤ i := by
      rw [List.length_map]
      exact List.getElem?_eq_none_iff.mp he
    rw [h.own_eq_nil hi]
    rfl

/-- Whatever is found event by event is found table by table. -/
theorem filterMap_perm {β : Type} (f : Event → Option β) :
    ((List.range es.length).flatMap fun i => (own i events).filterMap f).Perm
      ((events.map Prod.snd).filterMap f) := by
  have hperm := h.perm.filterMap f
  rw [List.length_map, List.filterMap_flatMap] at hperm
  exact hperm

end Interleaved

/-- Of all registered entities, reconciled side by side in any order of their statements, every one
is seen to whatever happens to the others; every statement that fails is reported once, with its
error, and nothing else is reported; and the result is the last failure of the last entity, in the
order of names, that had one, and none exactly if nothing failed. One after the other is one of the
orders. -/
theorem every_failure_is_reported (r : Registry) (exec : Executor σ) (s : σ) :
    (∃ events results s', Interleaved exec (r.entities.map entity) s events results s'
      ∧ (all r).run exec s = ⟨lastError results, events.map Prod.snd, s'⟩)
    ∧ ∀ events results s', Interleaved exec (r.entities.map entity) s events results s' →
      (∀ i e, r.entities[i]? = some e → Visit e (calls (own i events)))
      ∧ (∀ i, reports (own i events) = failures (own i events))
      ∧ (reports (events.map Prod.snd)).Perm (failures (events.map Prod.snd))
      ∧ lastError results
        = ((List.range r.entities.length).flatMap fun i => failures (own i events)).getLast?
      ∧ (lastError results = none ↔ failures (events.map Prod.snd) = []) := by
  refine ⟨interleaved_entities exec r.entities s, fun events results s' h => ?_⟩
  have hresult : lastError results
      = ((List.range r.entities.length).flatMap fun i => failures (own i events)).getLast? := by
    rw [results_eq h]
    exact lastError_map_getLast? (fun i => failures (own i events)) _
  have hfailures := filterMap_perm h Event.failure?
  -- Reports are compared with failures table by table: across tables their orders may differ.
  refine ⟨fun i e he => (visit_own h he).1, reports_own h, ?_, hresult, ?_⟩
  · have hreports := filterMap_perm h Event.report?
    have hown := List.flatMap_congr fun i (_ : i ∈ List.range r.entities.length) => reports_own h i
    exact hreports.symm.trans ((List.Perm.of_eq hown).trans hfailures)
  · rw [hresult, List.getLast?_eq_none_iff]
    exact ⟨fun hnil => List.perm_nil.mp (hnil ▸ hfailures.symm),
      fun hnil => List.perm_nil.mp (hnil ▸ hfailures)⟩

/-- Notes, and tags with an index over their labels. -/
def notesAndTags : Registry :=
  (Registry.empty.register
      (.declare "tag" none [.plain "label" .string] [⟨"tag_label", .plain, none, ["label"]⟩])).register
    (.declare "note" none [.plain "title" .string] [])

/-- An executor that knows no table and counts the statements it is sent. It refuses the first and
the third. -/
def refusing : Executor Nat := fun n _ =>
  (if n = 0 ∨ n = 2 then .error (.database (Numeral.ofNat n)) else .ok [], n + 1)

/-- The columns of the notes cannot be read, nor can the table of the tags be created: the index of
the tags is asked for all the same, the notes are left alone, and both failures are reported, each
behind a statement for the other table. -/
theorem every_failure_is_reported_refusing :
    ∃ events results s',
      Interleaved refusing (notesAndTags.entities.map entity) 0 events results s'
      ∧ events.map Prod.fst = [0, 1, 0, 1, 1, 1]
      ∧ reports (own 0 events) = [.database "0"] ∧ reports (own 1 events) = [.database "2"]
      ∧ lastError results = some (.database "2") := by
  have h : Interleaved refusing (notesAndTags.entities.map entity) 0 _ _ _ :=
    .send 0 rfl <| .send 1 rfl <| .report 0 rfl <| .send 1 rfl <| .report 1 rfl <| .send 1 rfl <|
      .done [some (Error.database "0"), some (Error.database "2")] _
  obtain ⟨-, hreported, -, hresult, -⟩ :=
    (every_failure_is_reported notesAndTags refusing 0).2 _ _ _ h
  exact ⟨_, _, _, h, rfl, hreported 0, hreported 1, hresult⟩

end Reconcile

end EntityStore
