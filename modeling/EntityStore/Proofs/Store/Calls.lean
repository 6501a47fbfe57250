import EntityStore.Proofs.Dml.Refusals
import EntityStore.Store

/-!
# What a call sends

Ten operations work on rows, and a call of any of them goes one of three ways. It may be refused for
a reason that lies in the registry and in what it is given; it may have nothing to do; or it sends a
statement, exactly one, and is done with the answer. Which way it goes is said here by what the call
is about, without any text: `Refusal` lists the reasons, `Idle` is having nothing to do.

The first two ways send nothing at all, and on the third an error for an answer is the result as it
is (`calls_send_at_most_one_statement`).
-/

set_option autoImplicit false

namespace EntityStore.Store

open Dml (declared)

/-! ## Calls -/

/-- A call of an operation on the rows of an entity. -/
inductive Call where
  | count (entity : String) (p : Option Predicate)
  | create (entity : String) (record : Record)
  | upsert (entity : String) (record : Record)
  | findAll (entity : String) (f : Filter)
  | find (entity : String) (id : Value)
  | rowExists (entity : String) (id : Value)
  | destroy (entity : String) (id : Value)
  | destroyAll (entity : String) (p : Option Predicate)
  | update (entity : String) (id : Value) (record : Record)
  | save (entity : String) (record : Record)

namespace Call

def entity : Call → String
  | .count name _ | .create name _ | .upsert name _ | .findAll name _ | .find name _
  | .rowExists name _ | .destroy name _ | .destroyAll name _ | .update name _ _ | .save name _ =>
    name

/-- What there is in the end if nothing fails. -/
def Result : Call → Type
  | .count .. => Nat
  | .create .. => Int
  | .upsert .. => Record
  | .findAll .. => List Row
  | .find .. => Option Row
  | .rowExists .. => Bool
  | .destroy .. | .destroyAll .. | .update .. | .save .. => Unit

def dialogue (r : Registry) : (c : Call) → Dialogue (Except Error c.Result)
  | .count entity p => Store.count r entity p
  | .create entity record => Store.create r entity record
  | .upsert entity record => Store.upsert r entity record
  | .findAll entity f => Store.findAll r entity f
  | .find entity id => Store.find r entity id
  | .rowExists entity id => Store.rowExists r entity id
  | .destroy entity id => Store.destroy r entity id
  | .destroyAll entity p => Store.destroyAll r entity p
  | .update entity id record => Store.update r entity id record
  | .save entity record => Store.save r entity record

/-! ## What a call is about -/

/-- The declared attributes that a call compares or stores something with, each with that value. -/
def values (e : Entity) : Call → List (Attribute × Value)
  | .count _ p | .destroyAll _ p => p.elim [] (·.comparands e)
  | .findAll _ f => f.comparands e
  | .create _ record | .upsert _ record | .update _ _ record | .save _ record =>
    declared e record.fields
  | .find .. | .rowExists .. | .destroy .. => []

/-- The value that a call names a row with, if it names one. An update with nothing to set does
not. -/
def key? (e : Entity) : Call → Option Value
  | .upsert _ record => record.id?
  | .find _ id | .rowExists _ id | .destroy _ id => some id
  | .update _ id record => if (declared e record.fields).isEmpty then none else some id
  | .save _ record => if (declared e record.fields).isEmpty then none else record.id?
  | .count .. | .create .. | .findAll .. | .destroyAll .. => none

/-- Whether a call has nothing to do: it sets fields of a row, and there are none to set. -/
def Idle (e : Entity) : Call → Prop
  | .update _ _ record | .save _ record => declared e record.fields = []
  | _ => False

end Call

/-- The reasons for which a call is refused, each with the error it is refused with. -/
inductive Refusal (r : Registry) (c : Call) : Error → Prop where
  /-- Only a record with an identifier can be saved. -/
  | unidentified {entity : String} {record : Record} : c = .save entity record →
    record.id? = none → Refusal r c (.saveWithoutId entity)
  /-- Nothing is registered under the name. -/
  | unknown : r.get? c.entity = none → Refusal r c (.unknownEntity c.entity)
  /-- A row is named of an entity without identifiers. -/
  | unkeyed {e : Entity} {id : Value} : r.get? c.entity = some e → c.key? e = some id →
    e.attribute? identifier = none → Refusal r c (.unknownEntity e.name)
  /-- A row is named by what counts as nothing. -/
  | absentKey {e : Entity} {id : Value} {a : Attribute} : r.get? c.entity = some e →
    c.key? e = some id → e.attribute? identifier = some a → id.absentFor a.type = true →
    Refusal r c (.nullIdentifier e.name)
  /-- A row is named by what cannot be a value of the identifier. -/
  | refusedKey {e : Entity} {id : Value} {a : Attribute} {err : Error} :
    r.get? c.entity = some e → c.key? e = some id → e.attribute? identifier = some a →
    id.refusal? a.type = some err → Refusal r c err
  /-- An attribute is compared with, or is to store, what cannot be a value of it. -/
  | refusedValue {e : Entity} {a : Attribute} {v : Value} {err : Error} :
    r.get? c.entity = some e → (a, v) ∈ c.values e → v.refusal? a.type = some err →
    Refusal r c err

/-! ## The statement of a call -/

namespace Call

/-- Why a call is refused whatever is registered, if it is. -/
def unidentified? : Call → Option Error
  | .save entity record =>
    match record.id? with
    | none => some (.saveWithoutId entity)
    | some _ => none
  | _ => none

/-- The statement that a call sends to the table of an entity, if it sends one. A record without an
identifier is refused before this matters. -/
def statement (e : Entity) : Call → Except Error (Option String)
  | .count _ p => (Sql.count e p).map some
  | .create _ record => (Sql.insert e record).map some
  | .upsert _ record =>
    match record.id? with
    | none => (Sql.insert e record).map some
    | some _ => (Sql.upsert e record).map some
  | .findAll _ f => (Sql.select e f).map some
  | .find _ id => (Sql.find e id).map some
  | .rowExists _ id => (Sql.rowExists e id).map some
  | .destroy _ id => (Sql.deleteRow e id).map some
  | .destroyAll _ p => (Sql.delete e p).map some
  | .update _ id record => Sql.update? e id record
  | .save _ record =>
    match record.id? with
    | none => .ok none
    | some id => Sql.update? e id record

/-- The statement that a call sends, if it sends one. -/
def text (r : Registry) (c : Call) : Except Error (Option String) :=
  match c.unidentified? with
  | some err => .error err
  | none => r.entity c.entity >>= c.statement

end Call

/-- How a dialogue goes by the statement it has: it is over with the error, or over without one, or
it asks once. -/
inductive Follows {α : Type} : Except Error (Option String) → Dialogue (Except Error α) → Prop where
  | error (err : Error) : Follows (.error err) (.done (.error err))
  | nothing (a : α) : Follows (.ok none) (.done (.ok a))
  | asking (sql : String) (read : List Row → Except Error α) :
    Follows (.ok (some sql)) (sending (.ok sql) read)

section Follows

variable {α β : Type}

theorem follows_sending (r : Registry) (entity : String) (build : Entity → Except Error String)
    (read : List Row → Except Error α) :
    Follows (r.entity entity >>= fun e => (build e).map some)
      (sending (statementFor r entity build) read) := by
  rw [statementFor]
  cases r.entity entity with
  | error err => exact .error err
  | ok e =>
    change Follows ((build e).map some) (sending (build e) read)
    cases build e with
    | error err => exact .error err
    | ok sql => exact .asking sql read

/-- What is done with the result belongs to the reading of the rows. -/
theorem bind_sending (sql : Except Error String) (read : List Row → Except Error α) (f : α → β) :
    (sending sql read).bind (fun result => .done (result.map f))
      = sending sql fun rows => (read rows).map f := by
  cases sql with
  | error err => rfl
  | ok sql =>
    refine congrArg (Dialogue.send sql) (funext fun answer => ?_)
    cases answer <;> rfl

theorem follows_update (r : Registry) (entity : String) (id : Value) (record : Record) :
    Follows (r.entity entity >>= fun e => Sql.update? e id record)
      (update r entity id record) := by
  unfold update
  cases r.entity entity >>= fun e => Sql.update? e id record with
  | error err => exact .error err
  | ok text =>
    cases text with
    | none => exact .nothing ()
    | some sql => exact .asking sql _

/-- A record without an identifier is inserted and gets the one that comes back. -/
theorem upsert_eq_of_id?_eq_none (r : Registry) (entity : String) {record : Record}
    (hid : record.id? = none) : ∃ read, upsert r entity record
      = sending (statementFor r entity fun e => Sql.insert e record) read
      ∧ ∀ rows saved, read rows = .ok saved → ∃ v, saved = record.set identifier v := by
  have hbind : upsert r entity record = (create r entity record).bind fun result =>
      .done (result.map fun id => record.set identifier (.int id)) := by
    unfold upsert
    rw [hid]
    refine congrArg (Dialogue.bind _) (funext fun result => ?_)
    cases result <;> rfl
  refine ⟨_, hbind.trans (bind_sending _ _ _), fun rows saved h => ?_⟩
  obtain ⟨id, -, hsaved⟩ := map_eq_ok_iff.mp h
  exact ⟨.int id, hsaved.symm⟩

theorem follows_dialogue (r : Registry) (c : Call) : Follows (c.text r) (c.dialogue r) := by
  cases c with
  | count entity p | create entity record | findAll entity f | find entity id
  | rowExists entity id | destroy entity id | destroyAll entity p => exact follows_sending r entity _ _
  | update entity id record => exact follows_update r entity id record
  | save entity record =>
    change Follows _ (save r entity record)
    cases hid : record.id? with
    | none =>
      simp only [Call.text, Call.unidentified?, save, hid]
      exact .error _
    | some id =>
      simp only [Call.text, Call.unidentified?, Call.statement, save, hid]
      exact follows_update r entity id record
  | upsert entity record =>
    change Follows _ (upsert r entity record)
    cases hid : record.id? with
    | none =>
      obtain ⟨read, hread, -⟩ := upsert_eq_of_id?_eq_none r entity hid
      simp only [Call.text, Call.unidentified?, Call.statement, hread, hid]
      exact follows_sending r entity _ read
    | some id =>
      simp only [Call.text, Call.unidentified?, Call.statement, upsert, hid]
      exact follows_sending r entity _ _

end Follows

/-! ## Reasons -/

/-- A call that is not refused whatever is registered fails for its key or for one of its values, in
one order or the other. -/
theorem error?_statement {c : Call} (e : Entity) (h : c.unidentified? = none) :
    error? (c.statement e) = ((c.key? e).bind e.keyRefusal?).or (firstRefusal? (c.values e))
      ∨ error? (c.statement e) = (firstRefusal? (c.values e)).or ((c.key? e).bind e.keyRefusal?) := by
  -- An update comes to its key behind the values, and only if there are any. A save is an update.
  have hupdate : ∀ id (record : Record), error? (Sql.update? e id record)
      = (firstRefusal? (declared e record.fields)).or
        ((if (declared e record.fields).isEmpty then none else some id).bind e.keyRefusal?) := by
    intro id record
    rw [Sql.error?_update?]
    split <;> rfl
  cases c with
  | count entity p => exact .inl ((error?_map _ _).trans (Sql.error?_count e p))
  | create entity record => exact .inl ((error?_map _ _).trans (Sql.error?_insert e record))
  | findAll entity f => exact .inl ((error?_map _ _).trans (Sql.error?_select e f))
  | destroyAll entity p => exact .inl ((error?_map _ _).trans (Sql.error?_delete e p))
  | find entity id => exact .inr ((error?_map _ _).trans (Sql.error?_find e id))
  | rowExists entity id => exact .inr ((error?_map _ _).trans (Sql.error?_rowExists e id))
  | destroy entity id => exact .inr ((error?_map _ _).trans (Sql.error?_deleteRow e id))
  | update entity id record => exact .inr (hupdate id record)
  | upsert entity record =>
    left
    cases hid : record.id? with
    | none =>
      simp only [Call.statement, Call.key?, Call.values, hid]
      exact (error?_map _ _).trans (Sql.error?_insert e record)
    | some id =>
      simp only [Call.statement, Call.key?, Call.values, hid]
      exact (error?_map _ _).trans (Sql.error?_upsert hid)
  | save entity record =>
    cases hid : record.id? with
    | none => simp only [Call.unidentified?, hid, reduceCtorEq] at h
    | some id =>
      simp only [Call.statement, Call.key?, Call.values, hid]
      exact .inr (hupdate id record)

theorem statement_eq_none_iff {c : Call} (e : Entity) (h : c.unidentified? = none) :
    c.statement e = .ok none ↔ c.Idle e := by
  have hmap : ∀ sql : Except Error String, sql.map some ≠ .ok none := by
    intro sql
    cases sql <;> nofun
  cases c with
  | count _ _ | create _ _ | findAll _ _ | find _ _ | rowExists _ _ | destroy _ _ | destroyAll _ _ =>
    exact iff_of_false (hmap _) id
  | upsert entity record =>
    refine iff_of_false ?_ id
    rw [Call.statement]
    split <;> exact hmap _
  | update entity id record => exact Sql.update?_eq_none_iff
  | save entity record =>
    cases hid : record.id? with
    | none => simp only [Call.unidentified?, hid, reduceCtorEq] at h
    | some id =>
      simp only [Call.statement, Call.Idle, hid]
      exact Sql.update?_eq_none_iff

section Refused

variable {r : Registry} {c : Call} {e : Entity} {err : Error}

theorem refusal_of_key (he : r.get? c.entity = some e)
    (h : (c.key? e).bind e.keyRefusal? = some err) : Refusal r c err := by
  obtain ⟨id, hid, h⟩ := Option.bind_eq_some_iff.mp h
  unfold Entity.keyRefusal? at h
  cases ha : e.attribute? identifier with
  | none =>
    rw [ha] at h
    cases h
    exact .unkeyed he hid ha
  | some a =>
    rw [ha] at h
    obtain hrefused | ⟨-, habsent⟩ := Option.or_eq_some_iff.mp h
    · exact .refusedKey he hid ha hrefused
    · split at habsent
      · next hnothing =>
        cases habsent
        exact .absentKey he hid ha hnothing
      · cases habsent

theorem refusal_of_value (he : r.get? c.entity = some e)
    (h : firstRefusal? (c.values e) = some err) : Refusal r c err := by
  obtain ⟨a, v, hmem, hrefused⟩ := exists_of_firstRefusal? h
  exact .refusedValue he hmem hrefused

theorem text_of_get? (h : c.unidentified? = none) (he : r.get? c.entity = some e) :
    c.text r = c.statement e := by
  rw [Call.text, h, Registry.entity, he]
  rfl

/-- The error that a call fails with before anything is sent is the one of a reason. -/
theorem refusal_of_text (h : c.text r = .error err) : Refusal r c err := by
  cases hc : c.unidentified? with
  | some reason =>
    rw [Call.text, hc] at h
    cases h
    cases c with
    | save entity record =>
      cases hid : record.id? with
      | none =>
        simp only [Call.unidentified?, hid, Option.some.injEq] at hc
        rw [← hc]
        exact .unidentified rfl hid
      | some id => simp only [Call.unidentified?, hid, reduceCtorEq] at hc
    | _ => cases hc
  | none =>
    cases he : r.get? c.entity with
    | none =>
      rw [Call.text, hc, Registry.entity, he] at h
      cases h
      exact .unknown he
    | some e =>
      rw [text_of_get? hc he] at h
      have herror := error?_eq_some_iff.mpr h
      -- Some calls write their key before their values, and some the other way round.
      obtain hsome | hsome := error?_statement e hc <;> rw [hsome] at herror
      · obtain hkey | ⟨-, hvalue⟩ := Option.or_eq_some_iff.mp herror
        · exact refusal_of_key he hkey
        · exact refusal_of_value he hvalue
      · obtain hvalue | ⟨-, hkey⟩ := Option.or_eq_some_iff.mp herror
        · exact refusal_of_value he hvalue
        · exact refusal_of_key he hkey

/-- What is written is refused for no reason. -/
theorem not_refusal_of_text {text : Option String} (h : c.text r = .ok text) :
    ¬ Refusal r c err := by
  intro hrefusal
  cases hc : c.unidentified? with
  | some reason =>
    rw [Call.text, hc] at h
    cases h
  | none =>
    -- In which order the key and the values come makes no difference when neither fails.
    have hnone : ∀ {e}, r.get? c.entity = some e →
        (c.key? e).bind e.keyRefusal? = none ∧ firstRefusal? (c.values e) = none := by
      intro e he
      rw [text_of_get? hc he] at h
      have herror := error?_eq_none_iff.mpr ⟨_, h⟩
      obtain hsome | hsome := error?_statement e hc <;>
        rw [hsome, Option.or_eq_none_iff] at herror
      · exact herror
      · exact herror.symm
    have hkey : ∀ {e id}, r.get? c.entity = some e → c.key? e = some id →
        ∃ a, e.attribute? identifier = some a ∧ id.refusal? a.type = none
          ∧ id.absentFor a.type = false := by
      intro e id he hid
      have hkey := (hnone he).1
      rw [hid, Option.bind_some] at hkey
      exact Entity.keyRefusal?_eq_none_iff.mp hkey
    cases hrefusal with
    | unidentified hsave hid =>
      subst hsave
      simp only [Call.unidentified?, hid, reduceCtorEq] at hc
    | unknown hnothing =>
      rw [Call.text, hc, Registry.entity, hnothing] at h
      cases h
    | unkeyed he hid ha =>
      obtain ⟨a, ha', -⟩ := hkey he hid
      cases ha.symm.trans ha'
    | absentKey he hid ha habsent =>
      obtain ⟨a, ha', -, hpresent⟩ := hkey he hid
      cases ha.symm.trans ha'
      cases habsent.symm.trans hpresent
    | refusedKey he hid ha hrefused =>
      obtain ⟨a, ha', haccepted, -⟩ := hkey he hid
      cases ha.symm.trans ha'
      cases hrefused.symm.trans haccepted
    | refusedValue he hmem hrefused =>
      cases (firstRefusal?_eq_none_iff.mp (hnone he).2 _ _ hmem).symm.trans hrefused

theorem exists_of_text {text : Option String} (h : c.text r = .ok text) :
    ∃ e, r.get? c.entity = some e ∧ c.statement e = .ok text
      ∧ (text = none ↔ c.Idle e) := by
  unfold Call.text at h
  split at h
  · cases h
  next hc =>
  cases he : r.get? c.entity with
  | none =>
    rw [Registry.entity, he] at h
    cases h
  | some e =>
    rw [Registry.entity, he] at h
    refine ⟨e, rfl, h, ?_⟩
    rw [← statement_eq_none_iff e hc]
    exact ⟨fun hnone => hnone ▸ h, fun hidle => Except.ok.inj (h.symm.trans hidle)⟩

end Refused

/-! ## What is sent -/

section Sent

variable {α : Type}

/-- Whether nothing happens in a dialogue, whatever answers, and what its result is. -/
def Silent (d : Dialogue α) (result : α) : Prop :=
  ∀ {σ : Type} (executor : Executor σ) (s : σ), d.run executor s = ⟨result, [], s⟩

/-- Whether a dialogue sends a statement and nothing else happens in it, whatever answers. An error
for an answer is the result as it is. -/
structure Asks (d : Dialogue (Except Error α)) (sql : String) : Prop where
  events : ∀ {σ : Type} (executor : Executor σ) (s : σ),
    (d.run executor s).events = [.sent sql (executor s sql).1]
  state : ∀ {σ : Type} (executor : Executor σ) (s : σ),
    (d.run executor s).state = (executor s sql).2
  failure : ∀ {σ : Type} (executor : Executor σ) (s : σ) (err : Error),
    (executor s sql).1 = .error err → (d.run executor s).result = .error err

theorem run_sending {σ : Type} (sql : String) (read : List Row → Except Error α)
    (executor : Executor σ) (s : σ) : (sending (.ok sql) read).run executor s
      = ⟨(executor s sql).1 >>= read, [.sent sql (executor s sql).1], (executor s sql).2⟩ := by
  rw [sending, Dialogue.run]
  generalize executor s sql = outcome
  obtain ⟨answer, s'⟩ := outcome
  cases answer <;> rfl

theorem asks_sending (sql : String) (read : List Row → Except Error α) :
    Asks (sending (.ok sql) read) sql where
  events executor s := by rw [run_sending]
  state executor s := by rw [run_sending]
  failure executor s err herr := by
    rw [run_sending, herr]
    rfl

/-- A result that is no error was read from rows. -/
theorem exists_read_of_run {σ : Type} {sql : Except Error String} {read : List Row → Except Error α}
    {executor : Executor σ} {s : σ} {a : α}
    (h : ((sending sql read).run executor s).result = .ok a) : ∃ rows, read rows = .ok a := by
  cases sql with
  | error err => cases h
  | ok sql =>
    rw [run_sending] at h
    obtain ⟨rows, -, hrows⟩ := bind_eq_ok_iff.mp h
    exact ⟨rows, hrows⟩

end Sent

/-- Setting a field leaves the others as they are, in their order. -/
theorem filter_put (name : String) (v : Value) (fields : List (String × Value)) :
    (Document.put name v fields).filter (·.1 != name) = fields.filter (·.1 != name) := by
  induction fields with
  | nil => simp [Document.put]
  | cons field rest ih =>
    rw [Document.put]
    split
    · next h => simp [h]
    · next h => simp [h, ih]

/-- The record that an upsert results in differs from the one that was given in the identifier at
most. -/
theorem fields_of_upsert {σ : Type} {r : Registry} {entity : String} {record saved : Record}
    {executor : Executor σ} {s : σ}
    (h : ((upsert r entity record).run executor s).result = .ok saved) :
    saved.fields.filter (·.1 != identifier) = record.fields.filter (·.1 != identifier) := by
  cases hid : record.id? with
  | none =>
    obtain ⟨read, hread, hsaved⟩ := upsert_eq_of_id?_eq_none r entity hid
    rw [hread] at h
    obtain ⟨rows, hrows⟩ := exists_read_of_run h
    obtain ⟨v, rfl⟩ := hsaved rows saved hrows
    exact filter_put identifier _ record.fields
  | some id =>
    simp only [upsert, hid] at h
    obtain ⟨rows, hrows⟩ := exists_read_of_run h
    split at hrows <;> cases hrows
    · exact filter_put identifier _ record.fields
    · rfl

/-- What becomes of a call. -/
inductive Disposal (r : Registry) (c : Call) : Prop where
  /-- There is a reason to refuse it, which is its result, and nothing is sent. -/
  | refused {err : Error} : Refusal r c err → Silent (c.dialogue r) (.error err) → Disposal r c
  /-- There is no reason to refuse it and nothing to do. It succeeds and nothing is sent. -/
  | idle {e : Entity} {a : c.Result} : (∀ err, ¬ Refusal r c err) → r.get? c.entity = some e →
    c.Idle e → Silent (c.dialogue r) (.ok a) → Disposal r c
  /-- There is no reason to refuse it and something to do. One statement is sent. -/
  | asked {e : Entity} {sql : String} : (∀ err, ¬ Refusal r c err) → r.get? c.entity = some e →
    ¬ c.Idle e → Asks (c.dialogue r) sql → Disposal r c

/-- Every call is refused, idle, or asks one statement, and which it is is settled before anything is
sent. If an upsert succeeds, its result is the record with all other fields than the identifier as
they were. -/
theorem calls_send_at_most_one_statement (r : Registry) :
    (∀ c : Call, Disposal r c)
    ∧ ∀ {σ : Type} (executor : Executor σ) (s : σ) (entity : String) (record saved : Record),
      ((upsert r entity record).run executor s).result = .ok saved →
        saved.fields.filter (·.1 != identifier) = record.fields.filter (·.1 != identifier) := by
  refine ⟨fun c => ?_, fun executor s entity record saved h => fields_of_upsert h⟩
  -- How the dialogue goes depends on its statement alone.
  have hfollows := follows_dialogue r c
  generalize htext : c.text r = text at hfollows
  generalize hdialogue : c.dialogue r = d at hfollows
  cases hfollows with
  | error err =>
    refine .refused (refusal_of_text htext) ?_
    rw [hdialogue]
    exact fun _ _ => rfl
  | nothing a =>
    obtain ⟨e, he, -, hidle⟩ := exists_of_text htext
    have hsilent : Silent (c.dialogue r) (.ok a) := by
      rw [hdialogue]
      exact fun _ _ => rfl
    exact .idle (fun err => not_refusal_of_text htext) he (hidle.mp rfl) hsilent
  | asking sql read =>
    obtain ⟨e, he, -, hidle⟩ := exists_of_text htext
    have hasks : Asks (c.dialogue r) sql := by
      rw [hdialogue]
      exact asks_sending sql read
    exact .asked (fun err => not_refusal_of_text htext) he
      (fun h => Option.some_ne_none sql (hidle.mpr h)) hasks

/-- A call for an unknown entity is refused, and an upsert that is answered with a row keeps the
fields of its record. -/
theorem calls_on_numberedNote :
    let r := Registry.empty.register Dml.numberedNote
    let answering : Executor Unit := fun s _ => (.ok [[("id", .number (.whole 7))]], s)
    (∃ err, Silent ((Call.count "letter" none).dialogue r) (.error err))
    ∧ ∃ saved, ((upsert r "note" Dml.hostile).run answering ()).result = .ok saved
      ∧ saved.fields.filter (·.1 != identifier) = Dml.hostile.fields.filter (·.1 != identifier) := by
  intro r answering
  obtain ⟨hcalls, hupserts⟩ := calls_send_at_most_one_statement r
  have hunknown : r.get? "letter" = none := rfl
  constructor
  · cases hcalls (.count "letter" none) with
    | refused _ hsilent => exact ⟨_, hsilent⟩
    | idle _ he | asked _ he => cases hunknown.symm.trans he
  · exact ⟨_, rfl, hupserts answering () "note" Dml.hostile _ rfl⟩

end EntityStore.Store
