import CoreBank.Foundation.FieldUpdates
import CoreBank.Foundation.Raising
import CoreBank.Server.Configuration

namespace CoreBank

open Foundation

/-!
# Loading that fails

`loadConfig` stores each member as soon as it has read it, and a member of the
wrong type throws.  The fields in front of it then come from the file while the
others are still those of an earlier load.  The connection string is written
last, and `connect` reads nothing else: what is connected to is what was last
loaded as a whole.
-/

/-- The members of the connection that a load assigns. -/
inductive ConfigField where
  | host
  | port
  | dbname
  | user
  | password
  | sslmode
  | connectTimeout
  | connectionString
  deriving DecidableEq, Repr

namespace ConfigField

/-- The members of the file, in the order in which they are read. -/
def members : List ConfigField :=
  [host, port, dbname, user, password, sslmode, connectTimeout]

/-- The value of the field, and what it stores. -/
def assign (cfg : Json) : ConfigField -> Except LoadError (DBConnection -> DBConnection)
  | host => (cfg.value Json.getString "host" []).map fun host db => { db with host }
  | port => (cfg.value Json.getInt "port" 0).map fun port db => { db with port }
  | dbname => (cfg.value Json.getString "dbname" []).map fun dbname db => { db with dbname }
  | user => (cfg.value Json.getString "user" []).map fun user db => { db with user }
  | password => (cfg.value Json.getString "password" []).map fun password db => { db with password }
  | sslmode => (cfg.value Json.getString "sslmode" []).map fun sslmode db => { db with sslmode }
  | connectTimeout =>
      (cfg.value Json.getInt "connect_timeout" 0).map fun connectTimeout db =>
        { db with connectTimeout }
  | connectionString => .ok fun db => { db with connectionString := db.text }

/-- Two connections have the same value in the field. -/
def Same : ConfigField -> DBConnection -> DBConnection -> Prop
  | host, first, second => second.host = first.host
  | port, first, second => second.port = first.port
  | dbname, first, second => second.dbname = first.dbname
  | user, first, second => second.user = first.user
  | password, first, second => second.password = first.password
  | sslmode, first, second => second.sslmode = first.sslmode
  | connectTimeout, first, second => second.connectTimeout = first.connectTimeout
  | connectionString, first, second => second.connectionString = first.connectionString

/-- The field has the value of the file, or the default if the file has no such
member; the connection string is that of the fields. -/
def FromFile (cfg : Json) : ConfigField -> DBConnection -> Prop
  | host, db => cfg.value Json.getString "host" [] = .ok db.host
  | port, db => cfg.value Json.getInt "port" 0 = .ok db.port
  | dbname, db => cfg.value Json.getString "dbname" [] = .ok db.dbname
  | user, db => cfg.value Json.getString "user" [] = .ok db.user
  | password, db => cfg.value Json.getString "password" [] = .ok db.password
  | sslmode, db => cfg.value Json.getString "sslmode" [] = .ok db.sslmode
  | connectTimeout, db => cfg.value Json.getInt "connect_timeout" 0 = .ok db.connectTimeout
  | connectionString, db => db.connectionString = db.text

/-- An assignment stores in its own field. -/
theorem assign_frame {cfg : Json} {field other : ConfigField} {update : DBConnection -> DBConnection}
    (assigns : field.assign cfg = .ok update) (different : other ≠ field) (db : DBConnection) :
    other.Same db (update db) := by
  cases field with
  | connectionString =>
      cases assigns
      cases other with
      | connectionString => exact absurd rfl different
      | _ => rfl
  | _ =>
      rcases map_eq_ok_iff.mp assigns with ⟨value, _, rfl⟩
      cases other with
      | _ => first | rfl | exact absurd rfl different

/-- The assignments of `loadConfig`. -/
def updates (cfg : Json) : FieldUpdates ConfigField DBConnection LoadError where
  assign := assign cfg
  Same := Same
  refl field _ := by
    cases field with
    | _ => rfl
  trans := by
    intro field first second third same later
    cases field with
    | _ => exact Eq.trans later same
  frame := assign_frame

end ConfigField

/-! ## The load as a sequence of assignments -/

/-- One read and one store are one assignment. -/
theorem run_field {cfg : Json} {A : Type} {read : Except LoadError A}
    {store : A -> DBConnection -> DBConnection} {rest : Loading Unit} {field : ConfigField}
    {fields : List ConfigField} (assigns : field.assign cfg = read.map store)
    (same : forall db, rest.run db = (ConfigField.updates cfg).assignAll fields db)
    (db : DBConnection) :
    ExceptT.run (do
      let value <- evaluate read
      modify (store value)
      rest) db = (ConfigField.updates cfg).assignAll (field :: fields) db := by
  cases read with
  | error problem => exact (FieldUpdates.assignAll_cons_error assigns).symm
  | ok value => exact (same (store value db)).trans (FieldUpdates.assignAll_cons_ok assigns).symm

/-- On a JSON value the load is the sequence of the assignments. -/
theorem run_loadConfig (path : String) (cfg : Json) (prior : DBConnection) :
    (loadConfig path (.parsed cfg)).run prior =
      (ConfigField.updates cfg).assignAll
        (ConfigField.members ++ [.connectionString]) prior := by
  unfold loadConfig
  simp only [ConfigFile.read, evaluate_ok_bind]
  -- one assignment for each member, and then the connection string
  apply run_field rfl
  apply run_field rfl
  apply run_field rfl
  apply run_field rfl
  apply run_field rfl
  apply run_field rfl
  apply run_field rfl
  exact fun db => rfl

/-! ## All of the file, or the fields in front of an error -/

theorem ConfigField.mem_members {field : ConfigField} (read : field ≠ .connectionString) :
    field ∈ members := by
  cases field with
  | connectionString => exact absurd rfl read
  | _ => decide

/-- The connection string is not among the members. -/
theorem ConfigField.notMem_of_members {earlier later : List ConfigField} {field : ConfigField}
    (order : members = earlier ++ field :: later) : connectionString ∉ earlier := by
  intro member
  have inside : connectionString ∈ members := by
    rw [order]
    exact List.mem_append_left _ member
  exact absurd inside (by decide)

theorem ConfigField.fromFile_of_filled {cfg : Json} {field : ConfigField} {db : DBConnection}
    (read : field ≠ .connectionString) (filled : (updates cfg).Filled field db) :
    field.FromFile cfg db := by
  rcases filled with ⟨update, before, assigns, same⟩
  cases field with
  | connectionString => exact absurd rfl read
  | _ =>
      rcases map_eq_ok_iff.mp assigns with ⟨value, reads, rfl⟩
      exact reads.trans (congrArg Except.ok (Eq.symm same))

/-- What a load can come to: everything is from the file; or the file cannot be
read, and nothing has changed; or a member has the wrong type, and the fields in
front of it are from the file while it and all others are as before. -/
inductive LoadOutcome (path : String) (file : ConfigFile) (prior : DBConnection) :
    Except LoadError Unit -> DBConnection -> Prop where
  | loads (cfg : Json) (parsed : file = .parsed cfg) (after : DBConnection)
      (fromFile : forall field : ConfigField, field.FromFile cfg after) :
      LoadOutcome path file prior (.ok ()) after
  | unreadable (problem : LoadError) (fails : file.read path = .error problem) :
      LoadOutcome path file prior (.error problem) prior
  | stops (cfg : Json) (parsed : file = .parsed cfg) (problem : LoadError)
      (earlier later : List ConfigField) (field : ConfigField)
      (order : ConfigField.members = earlier ++ field :: later)
      (fails : field.assign cfg = .error problem) (after : DBConnection)
      (fromFile : forall other, other ∈ earlier -> other.FromFile cfg after)
      (others : forall other, other ∉ earlier -> other.Same prior after) :
      LoadOutcome path file prior (.error problem) after

/-- Every load of every file, over any earlier load, comes to one of these. -/
theorem loadConfig_outcome (path : String) (file : ConfigFile) (prior : DBConnection) :
    LoadOutcome path file prior ((loadConfig path file).run prior).1
      ((loadConfig path file).run prior).2 := by
  cases file with
  | missing => exact .unreadable _ rfl
  | malformed what => exact .unreadable _ rfl
  | parsed cfg =>
      rw [run_loadConfig]
      rcases outcome : (ConfigField.updates cfg).assignAll ConfigField.members prior with
        ⟨result, between⟩
      cases result with
      | ok =>
          rw [FieldUpdates.assignAll_append_ok outcome]
          refine .loads cfg rfl _ fun field => ?_
          by_cases read : field = .connectionString
          · rw [read]
            rfl
          · have filled : (ConfigField.updates cfg).Filled field between :=
              FieldUpdates.filled_assignAll outcome (ConfigField.mem_members read)
            have written : ConfigField.connectionString.assign cfg =
                .ok fun db => { db with connectionString := db.text } := rfl
            have same : field.Same between { between with connectionString := between.text } :=
              ConfigField.assign_frame written read between
            exact ConfigField.fromFile_of_filled read (filled.of_same same)
      | error problem =>
          rw [FieldUpdates.assignAll_append_error outcome]
          rcases FieldUpdates.exists_of_assignAll_error outcome with
            ⟨earlier, field, later, order, fails, success⟩
          refine .stops cfg rfl problem earlier later field order fails between ?_ ?_
          · intro other member
            have read : other ≠ .connectionString := by
              rintro rfl
              exact ConfigField.notMem_of_members order member
            exact ConfigField.fromFile_of_filled read (FieldUpdates.filled_assignAll success member)
          · intro other absent
            have same : (ConfigField.updates cfg).Same other prior
                ((ConfigField.updates cfg).assignAll earlier prior).2 :=
              FieldUpdates.same_assignAll absent prior
            rw [success] at same
            exact same

/-- The load takes everything from the file, or changes nothing. -/
def AllOrNothing (path : String) (file : ConfigFile) (prior : DBConnection) : Prop :=
  (((loadConfig path file).run prior).1 = .ok () ∧ Exists fun cfg => file = .parsed cfg ∧
    forall field : ConfigField, field.FromFile cfg ((loadConfig path file).run prior).2) ∨
  (Exists fun problem => ((loadConfig path file).run prior).1 = .error problem ∧
    ((loadConfig path file).run prior).2 = prior)

/-- A file that names another host and has its port in quotes. -/
def quotedPort : Json :=
  .object [(ascii "host", .string (ascii "db.internal")), (ascii "port", .string (ascii "5433"))]

/-- The load of that file throws at the port, and the host is the new one. -/
theorem not_allOrNothing_of_every_file : ¬ forall path file prior, AllOrNothing path file prior := by
  intro always
  have throws : (loadConfig "config/db_credential.json" (.parsed quotedPort)).run
      DBConnection.initial =
        (.error (.typeError 302 "type must be number, but is string"),
          { DBConnection.initial with host := ascii "db.internal" }) := rfl
  rcases always "config/db_credential.json" (.parsed quotedPort) DBConnection.initial with
    ⟨loaded, _⟩ | ⟨problem, _, same⟩
  · rw [throws] at loaded
    cases loaded
  · rw [throws] at same
    exact absurd (congrArg DBConnection.host same) (by decide)

end CoreBank
