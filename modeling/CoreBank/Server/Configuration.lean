import CoreBank.Foundation.KeyValueText
import CoreBank.Server.Doubles

namespace CoreBank

open Foundation

/-!
# The configuration of the connection

`loadConfig` reads seven members of a JSON object into the fields of the
connection and writes them one after the other into the connection string, each
value as it is.  The client library reads that string with a grammar of its own,
in which blanks separate the settings, a quote in front of a value and a
backslash within it have a meaning, and an empty value is none.

The string therefore says what the file says exactly if every text is a bare
word and both numbers fit an `int`.  The password of the shipped file is empty,
and reads back as the setting behind it.
-/

/-! ## The file -/

/-- A JSON value.  A number that the library keeps in floating point stands for
the `int` that a cast makes of it. -/
inductive Json where
  | null
  | boolean (value : Bool)
  | integer (value : ℤ)
  | float (asInt : Int32)
  | string (value : List Byte)
  | array
  | object (members : List (List Byte × Json))

/-- What the stream gives: no file, no JSON, or a value. -/
inductive ConfigFile where
  | missing
  | malformed (what : String)
  | parsed (cfg : Json)

inductive LoadError where
  | cannotOpen (path : String)
  | parseError (what : String)
  | typeError (id : ℕ) (problem : String)

def LoadError.what : LoadError -> String
  | .cannotOpen path => "Failed to open config file: " ++ path
  | .parseError what => what
  | .typeError id problem => "[json.exception.type_error." ++ toString id ++ "] " ++ problem

namespace Json

def typeName : Json -> String
  | null => "null"
  | boolean _ => "boolean"
  | integer _ => "number"
  | float _ => "number"
  | string _ => "string"
  | array => "array"
  | object _ => "object"

/-- `get<std::string>()`. -/
def getString : Json -> Except LoadError (List Byte)
  | string value => .ok value
  | other => .error (.typeError 302 ("type must be string, but is " ++ other.typeName))

/-- `get<int>()`, which casts a number whatever its size. -/
def getInt : Json -> Except LoadError Int32
  | integer value => .ok (Int32.ofInt value)
  | float asInt => .ok asInt
  | boolean value => .ok (if value then 1 else 0)
  | other => .error (.typeError 302 ("type must be number, but is " ++ other.typeName))

/-- `cfg.value(key, default)`. -/
def value {A : Type} (cfg : Json) (get : Json -> Except LoadError A) (key : String) (default : A) :
    Except LoadError A :=
  match cfg with
  | object members =>
      match members.lookup (ascii key) with
      | some found => get found
      | none => .ok default
  | other => .error (.typeError 306 ("cannot use value() with " ++ other.typeName))

/-- The member of an object. -/
def member (cfg : Json) (key : String) : Option Json :=
  match cfg with
  | object members => members.lookup (ascii key)
  | _ => none

end Json

/-! ## Loading -/

structure DBConnection where
  host : List Byte
  port : Int32
  dbname : List Byte
  user : List Byte
  password : List Byte
  sslmode : List Byte
  connectTimeout : Int32
  connectionString : List Byte

/-- The singleton before anything is loaded. -/
def DBConnection.initial : DBConnection where
  host := []
  port := 5432
  dbname := []
  user := []
  password := []
  sslmode := []
  connectTimeout := 5
  connectionString := []

/-- `<<` of an integer. -/
def intText (n : ℤ) : List Byte :=
  ascii (toString n)

/-- What the `ostringstream` is given. -/
def DBConnection.text (db : DBConnection) : List Byte :=
  ascii "host=" ++ db.host ++
  ascii " port=" ++ intText db.port.toInt ++
  ascii " dbname=" ++ db.dbname ++
  ascii " user=" ++ db.user ++
  ascii " password=" ++ db.password ++
  ascii " sslmode=" ++ db.sslmode ++
  ascii " connect_timeout=" ++ intText db.connectTimeout.toInt

/-- Code that may throw; what it has stored before it throws stays stored. -/
abbrev Loading (A : Type) : Type :=
  ExceptT LoadError (StateM DBConnection) A

/-- The value of an expression that may throw. -/
def evaluate {A : Type} (value : Except LoadError A) : Loading A :=
  ExceptT.mk (pure value)

@[simp] theorem evaluate_ok_bind {A B : Type} (value : A) (rest : A -> Loading B) :
    evaluate (.ok value) >>= rest = rest value :=
  rfl

/-- `file >> cfg`, if the file is open. -/
def ConfigFile.read (path : String) : ConfigFile -> Except LoadError Json
  | missing => .error (.cannotOpen path)
  | malformed what => .error (.parseError what)
  | parsed cfg => .ok cfg

def loadConfig (path : String) (file : ConfigFile) : Loading Unit := do
  let cfg <- evaluate (file.read path)
  let host <- evaluate (cfg.value Json.getString "host" [])
  modify fun db => { db with host := host }
  let port <- evaluate (cfg.value Json.getInt "port" 0)
  modify fun db => { db with port := port }
  let dbname <- evaluate (cfg.value Json.getString "dbname" [])
  modify fun db => { db with dbname := dbname }
  let user <- evaluate (cfg.value Json.getString "user" [])
  modify fun db => { db with user := user }
  let password <- evaluate (cfg.value Json.getString "password" [])
  modify fun db => { db with password := password }
  let sslmode <- evaluate (cfg.value Json.getString "sslmode" [])
  modify fun db => { db with sslmode := sslmode }
  let connectTimeout <- evaluate (cfg.value Json.getInt "connect_timeout" 0)
  modify fun db => { db with connectTimeout := connectTimeout }
  modify fun db => { db with connectionString := db.text }

/-- The fields after a load that has read all of them. -/
def DBConnection.filled (host dbname user password sslmode : List Byte) (port connectTimeout : Int32) :
    DBConnection :=
  let fields : DBConnection :=
    { host, port, dbname, user, password, sslmode, connectTimeout, connectionString := [] }
  { fields with connectionString := fields.text }

theorem loadConfig_filled {path : String} {cfg : Json} {host dbname user password sslmode : List Byte}
    {port connectTimeout : Int32}
    (readHost : cfg.value Json.getString "host" [] = .ok host)
    (readPort : cfg.value Json.getInt "port" 0 = .ok port)
    (readDbname : cfg.value Json.getString "dbname" [] = .ok dbname)
    (readUser : cfg.value Json.getString "user" [] = .ok user)
    (readPassword : cfg.value Json.getString "password" [] = .ok password)
    (readSslmode : cfg.value Json.getString "sslmode" [] = .ok sslmode)
    (readTimeout : cfg.value Json.getInt "connect_timeout" 0 = .ok connectTimeout)
    (prior : DBConnection) :
    (loadConfig path (.parsed cfg)).run prior =
      (.ok (), DBConnection.filled host dbname user password sslmode port connectTimeout) := by
  unfold loadConfig
  simp only [ConfigFile.read, evaluate_ok_bind, readHost, readPort, readDbname, readUser,
    readPassword, readSslmode, readTimeout]
  rfl

/-! ## Reading the connection string -/

/-- The grammar of connection strings. -/
def conninfo : KeyValueSyntax Byte where
  isBlank := isSpace
  separator := 32
  equals := 61
  quote := 39
  escape := 92
  separator_blank := by decide
  equals_solid := by decide
  quote_solid := by decide
  escape_solid := by decide
  quote_ne_escape := by decide

/-- What `c_str()` of a string is as a C string. -/
def cString (text : List Byte) : List Byte :=
  text.takeWhile fun byte => byte ≠ 0

theorem nul_notMem_cString (text : List Byte) : (0 : Byte) ∉ cString text := by
  intro member
  have nonzero := List.mem_takeWhile_imp (p := fun byte : Byte => decide (byte ≠ 0)) member
  exact absurd nonzero (by decide)

/-- The settings that `connect` hands over to the client library. -/
def DBConnection.connectionSettings (db : DBConnection) : Option (List (List Byte × List Byte)) :=
  conninfo.settings (cString db.connectionString)

/-! ## What a file says -/

/-- The value of an integer in a file: one that does not fit 64 bits is kept in
floating point. -/
inductive Json.IsInteger (n : ℤ) : Json -> Prop where
  | stored (fits : -2 ^ 63 ≤ n ∧ n < 2 ^ 64) : Json.IsInteger n (.integer n)
  | rounded (asInt : Int32) (wide : ¬ (-2 ^ 63 ≤ n ∧ n < 2 ^ 64)) : Json.IsInteger n (.float asInt)

/-- Five texts and two integers. -/
structure Configuration where
  host : List Byte
  port : ℤ
  dbname : List Byte
  user : List Byte
  password : List Byte
  sslmode : List Byte
  connectTimeout : ℤ

/-- The file has these members; it may have others. -/
structure Describes (cfg : Json) (configuration : Configuration) : Prop where
  host : cfg.member "host" = some (.string configuration.host)
  port : Exists fun number => cfg.member "port" = some number ∧ number.IsInteger configuration.port
  dbname : cfg.member "dbname" = some (.string configuration.dbname)
  user : cfg.member "user" = some (.string configuration.user)
  password : cfg.member "password" = some (.string configuration.password)
  sslmode : cfg.member "sslmode" = some (.string configuration.sslmode)
  connectTimeout : Exists fun number => cfg.member "connect_timeout" = some number ∧
    number.IsInteger configuration.connectTimeout

/-- The seven pairs of keyword and value. -/
def Configuration.pairs (configuration : Configuration) : List (List Byte × List Byte) :=
  [(ascii "host", configuration.host),
    (ascii "port", intText configuration.port),
    (ascii "dbname", configuration.dbname),
    (ascii "user", configuration.user),
    (ascii "password", configuration.password),
    (ascii "sslmode", configuration.sslmode),
    (ascii "connect_timeout", intText configuration.connectTimeout)]

/-- After the load, the client library reads the pairs of the configuration, in
some order, and nothing else. -/
def CarriesFaithfully (path : String) (prior : DBConnection) (cfg : Json)
    (configuration : Configuration) : Prop :=
  Exists fun loaded => (loadConfig path (.parsed cfg)).run prior = (.ok (), loaded) ∧
    Exists fun settings => loaded.connectionSettings = some settings ∧
      settings.Perm configuration.pairs

/-- A text that stands for itself in a connection string: it has a character,
no blank, no backslash, no NUL, and no quote in front. -/
structure IsBareWord (text : List Byte) : Prop where
  filled : text ≠ []
  solid : forall byte, byte ∈ text -> isSpace byte = false ∧ byte ≠ 92 ∧ byte ≠ 0
  unquoted : text.head? ≠ some 39

theorem isBareWord_of_all {text : List Byte} (filled : text ≠ [])
    (solid : (text.all fun byte =>
      !isSpace byte && decide (byte ≠ 92) && decide (byte ≠ 0) && decide (byte ≠ 39)) = true) :
    IsBareWord text := by
  simp only [List.all_eq_true, Bool.and_eq_true, decide_eq_true_eq, Bool.not_eq_true'] at solid
  refine ⟨filled, fun byte member => ?_, fun quote => ?_⟩
  · rcases solid byte member with ⟨⟨⟨blank, escape⟩, nul⟩, _⟩
    exact ⟨blank, escape, nul⟩
  · exact (solid 39 (List.mem_of_mem_head? quote)).2 rfl

/-- A number that an `int` can hold. -/
def FitsInt (n : ℤ) : Prop :=
  -2 ^ 31 ≤ n ∧ n < 2 ^ 31

/-- The texts are bare words and the numbers fit. -/
structure Configuration.IsPlain (configuration : Configuration) : Prop where
  host : IsBareWord configuration.host
  port : FitsInt configuration.port
  dbname : IsBareWord configuration.dbname
  user : IsBareWord configuration.user
  password : IsBareWord configuration.password
  sslmode : IsBareWord configuration.sslmode
  connectTimeout : FitsInt configuration.connectTimeout

/-! ## Printed integers -/

theorem intText_natCast (n : ℕ) : intText n = ascii (toString n) :=
  rfl

theorem intText_negSucc (n : ℕ) : intText (Int.negSucc n) = 45 :: ascii (toString (n + 1)) := by
  have split : toString (Int.negSucc n) = "-" ++ toString (n + 1) := rfl
  rw [intText, split, ascii_append]
  rfl

theorem naturalValue_toString (n : ℕ) : naturalValue (ascii (toString n)) = some n := by
  have writes := writes_toString n
  rw [naturalValue, if_pos ⟨toString_filled n, List.all_eq_true.mpr writes.digits⟩, writes.value]

theorem integerValue_intText (n : ℤ) : integerValue (intText n) = some n := by
  cases n with
  | ofNat n =>
      have unsigned := splitSign_of_writes (writes_toString n) (toString_filled n) []
      rw [List.append_nil] at unsigned
      rw [Int.ofNat_eq_natCast, intText_natCast, integerValue, unsigned, naturalValue_toString]
      rfl
  | negSucc n =>
      have signed : splitSign (45 :: ascii (toString (n + 1))) = (true, ascii (toString (n + 1))) := by
        rw [splitSign, if_pos rfl]
      rw [intText_negSucc, integerValue, signed, naturalValue_toString]
      rfl

theorem intText_injective {n m : ℤ} (same : intText n = intText m) : n = m := by
  have both := integerValue_intText n
  rw [same, integerValue_intText] at both
  exact (Option.some.inj both).symm

theorem isDigit_solid {byte : Byte} (digit : isDigit byte = true) :
    isSpace byte = false ∧ byte ≠ 92 ∧ byte ≠ 0 ∧ byte ≠ 39 := by
  have all : forall value : Fin 256, isDigit (UInt8.ofFin value) = true ->
      isSpace (UInt8.ofFin value) = false ∧ UInt8.ofFin value ≠ 92 ∧ UInt8.ofFin value ≠ 0 ∧
        UInt8.ofFin value ≠ 39 := by decide +kernel
  exact all byte.toFin digit

theorem mem_intText {n : ℤ} {byte : Byte} (member : byte ∈ intText n) :
    isSpace byte = false ∧ byte ≠ 92 ∧ byte ≠ 0 ∧ byte ≠ 39 := by
  cases n with
  | ofNat n => exact isDigit_solid ((writes_toString n).digits byte member)
  | negSucc n =>
      rw [intText_negSucc] at member
      rcases List.mem_cons.mp member with rfl | digit
      · decide
      · exact isDigit_solid ((writes_toString (n + 1)).digits byte digit)

theorem isBareWord_intText (n : ℤ) : IsBareWord (intText n) where
  filled := by
    cases n with
    | ofNat n => exact toString_filled n
    | negSucc n =>
        rw [intText_negSucc]
        exact List.cons_ne_nil _ _
  solid := by
    intro byte member
    rcases mem_intText member with ⟨solid, escape, nul, _⟩
    exact ⟨solid, escape, nul⟩
  unquoted := by
    intro quote
    exact (mem_intText (List.mem_of_mem_head? quote)).2.2.2 rfl

theorem toInt_ofInt_eq_iff (n : ℤ) : (Int32.ofInt n).toInt = n ↔ FitsInt n := by
  constructor
  · intro same
    rw [← same]
    exact ⟨Int32.le_toInt _, Int32.toInt_lt _⟩
  · intro fits
    exact Int32.toInt_ofInt_of_le fits.1 fits.2

/-! ## The loaded connection -/

theorem Json.value_of_member {A : Type} {cfg found : Json} {get : Json -> Except LoadError A}
    {key : String} {default : A} (known : cfg.member key = some found) :
    cfg.value get key default = get found := by
  cases cfg with
  | object members =>
      have looked : members.lookup (ascii key) = some found := known
      rw [Json.value, looked]
  | _ => cases known

/-- An integer is loaded as itself exactly if it fits an `int`. -/
theorem Json.IsInteger.getInt {n : ℤ} {number : Json} (isInteger : number.IsInteger n) :
    Exists fun loaded => number.getInt = .ok loaded ∧ (loaded.toInt = n ↔ FitsInt n) := by
  cases isInteger with
  | stored fits => exact ⟨_, rfl, toInt_ofInt_eq_iff n⟩
  | rounded asInt wide =>
      refine ⟨asInt, rfl, ?_, ?_⟩
      · intro same
        rw [← same]
        exact ⟨Int32.le_toInt _, Int32.toInt_lt _⟩
      · intro fits
        unfold FitsInt at fits
        omega

namespace Configuration

variable (configuration : Configuration) (port connectTimeout : Int32)

/-- The fields with the texts of the configuration. -/
def loaded : DBConnection :=
  DBConnection.filled configuration.host configuration.dbname configuration.user
    configuration.password configuration.sslmode port connectTimeout

/-- The settings of the connection string, as they are written and as they are
meant. -/
def entries : List (KeyValueSyntax.Entry Byte) :=
  [⟨ascii "host", configuration.host, configuration.host⟩,
    ⟨ascii "port", intText port.toInt, intText configuration.port⟩,
    ⟨ascii "dbname", configuration.dbname, configuration.dbname⟩,
    ⟨ascii "user", configuration.user, configuration.user⟩,
    ⟨ascii "password", configuration.password, configuration.password⟩,
    ⟨ascii "sslmode", configuration.sslmode, configuration.sslmode⟩,
    ⟨ascii "connect_timeout", intText connectTimeout.toInt, intText configuration.connectTimeout⟩]

/-- The seven keywords. -/
def keywords : List (List Byte) :=
  [ascii "host", ascii "port", ascii "dbname", ascii "user", ascii "password", ascii "sslmode",
    ascii "connect_timeout"]

variable {configuration port connectTimeout}

theorem map_key_entries :
    (configuration.entries port connectTimeout).map KeyValueSyntax.Entry.key = keywords :=
  rfl

theorem map_meant_entries : (configuration.entries port connectTimeout).map
    (fun entry => (entry.key, entry.meant)) = configuration.pairs :=
  rfl

theorem nodup_keywords : keywords.Nodup := by
  decide

theorem solid_keywords : forall key, key ∈ keywords -> key ≠ [] ∧
    forall byte, byte ∈ key -> (conninfo.ordinary byte = true ∧ byte ≠ 61) ∧ byte ≠ 0 := by
  have all : (keywords.all fun key => decide (key ≠ []) &&
      key.all fun byte => (conninfo.ordinary byte && decide (byte ≠ 61)) && decide (byte ≠ 0)) =
        true := by
    decide
  simp only [List.all_eq_true, Bool.and_eq_true, decide_eq_true_eq] at all
  exact all

theorem key_mem {entry : KeyValueSyntax.Entry Byte}
    (member : entry ∈ configuration.entries port connectTimeout) : entry.key ∈ keywords := by
  have keys : (configuration.entries port connectTimeout).map KeyValueSyntax.Entry.key = keywords :=
    map_key_entries
  rw [← keys]
  exact List.mem_map_of_mem member

theorem isKey_of_mem {entry : KeyValueSyntax.Entry Byte}
    (member : entry ∈ configuration.entries port connectTimeout) : conninfo.IsKey entry.key where
  filled := (solid_keywords entry.key (key_mem member)).1
  plain := fun byte inside => ((solid_keywords entry.key (key_mem member)).2 byte inside).1

theorem text_loaded : (configuration.loaded port connectTimeout).connectionString =
    conninfo.line (configuration.entries port connectTimeout) := by
  have host : ascii "host=" = ascii "host" ++ [61] := by decide
  have second : ascii " port=" = 32 :: (ascii "port" ++ [61]) := by decide
  have dbname : ascii " dbname=" = 32 :: (ascii "dbname" ++ [61]) := by decide
  have user : ascii " user=" = 32 :: (ascii "user" ++ [61]) := by decide
  have password : ascii " password=" = 32 :: (ascii "password" ++ [61]) := by decide
  have sslmode : ascii " sslmode=" = 32 :: (ascii "sslmode" ++ [61]) := by decide
  have timeout : ascii " connect_timeout=" = 32 :: (ascii "connect_timeout" ++ [61]) := by decide
  simp only [loaded, DBConnection.filled, DBConnection.text, host, second, dbname, user, password,
    sslmode, timeout, entries, KeyValueSyntax.line, KeyValueSyntax.entryText, conninfo,
    List.append_assoc, List.cons_append, List.nil_append]

end Configuration

theorem isBareWord_iff {text : List Byte} : IsBareWord text ↔ conninfo.Plain text ∧ (0 : Byte) ∉ text := by
  constructor
  · intro bare
    refine ⟨⟨bare.filled, ?_, bare.unquoted⟩, fun nul => (bare.solid 0 nul).2.2 rfl⟩
    intro byte member
    rcases bare.solid byte member with ⟨solid, escape, _⟩
    exact ⟨solid, escape⟩
  · rintro ⟨plain, noNul⟩
    refine ⟨plain.filled, ?_, plain.unquoted⟩
    intro byte member
    rcases plain.solid byte member with ⟨solid, escape⟩
    refine ⟨solid, escape, ?_⟩
    rintro rfl
    exact noNul member

namespace Configuration

variable {configuration : Configuration} {port connectTimeout : Int32}

/-- A text is written as it is meant, and a number is a bare word. -/
theorem written_of_mem {entry : KeyValueSyntax.Entry Byte}
    (member : entry ∈ configuration.entries port connectTimeout) :
    entry.written = entry.meant ∨ IsBareWord entry.written := by
  have all : forall entry, entry ∈ configuration.entries port connectTimeout ->
      entry.written = entry.meant ∨ IsBareWord entry.written := by
    simp only [entries, List.forall_mem_cons]
    exact ⟨.inl trivial, .inr (isBareWord_intText _), .inl trivial, .inl trivial, .inl trivial,
      .inl trivial, .inr (isBareWord_intText _), fun entry member => absurd member List.not_mem_nil⟩
  exact all entry member

/-- Without a NUL among the values the client library sees the whole text. -/
theorem connectionSettings_loaded
    (noNul : forall entry, entry ∈ configuration.entries port connectTimeout ->
      (0 : Byte) ∉ entry.written) :
    (configuration.loaded port connectTimeout).connectionSettings =
      conninfo.settings (conninfo.line (configuration.entries port connectTimeout)) := by
  have whole : cString (conninfo.line (configuration.entries port connectTimeout)) =
      conninfo.line (configuration.entries port connectTimeout) := by
    refine List.takeWhile_eq_self_iff.mpr fun byte member => decide_eq_true ?_
    rcases KeyValueSyntax.mem_line member with rfl | rfl | ⟨entry, known, key | written⟩
    · decide
    · decide
    · exact ((solid_keywords entry.key (key_mem known)).2 byte key).2
    · rintro rfl
      exact noNul entry known written
  rw [DBConnection.connectionSettings, text_loaded, whole]

/-- The settings are the meant ones exactly if every value is a bare word that
is written as it is meant. -/
theorem connectionSettings_perm_iff :
    (Exists fun settings =>
      (configuration.loaded port connectTimeout).connectionSettings = some settings ∧
        settings.Perm configuration.pairs) ↔
    forall entry, entry ∈ configuration.entries port connectTimeout ->
      IsBareWord entry.written ∧ entry.written = entry.meant := by
  have line := KeyValueSyntax.settings_line_perm_iff
    (fun entry (member : entry ∈ configuration.entries port connectTimeout) => isKey_of_mem member)
    (by rw [map_key_entries]; exact nodup_keywords)
    (fun entry member => (written_of_mem member).imp_right fun bare => (isBareWord_iff.mp bare).1)
    (by
      intro entry isLast
      cases isLast
      exact (isBareWord_iff.mp (isBareWord_intText _)).1)
  rw [map_meant_entries] at line
  constructor
  · rintro ⟨settings, read, perm⟩
    have noNul : forall entry, entry ∈ configuration.entries port connectTimeout ->
        (0 : Byte) ∉ entry.written := by
      intro entry member nul
      rcases written_of_mem member with asMeant | bare
      · have known : (entry.key, entry.meant) ∈ configuration.pairs := by
          have meant : (configuration.entries port connectTimeout).map
              (fun entry => (entry.key, entry.meant)) = configuration.pairs := map_meant_entries
          rw [← meant]
          exact List.mem_map_of_mem member
        rw [asMeant] at nul
        have inside := KeyValueSyntax.mem_of_settings read (perm.mem_iff.mpr known) nul
        exact nul_notMem_cString _ inside
      · exact (bare.solid 0 nul).2.2 rfl
    rw [connectionSettings_loaded noNul] at read
    intro entry member
    rcases line.mp ⟨settings, read, perm⟩ entry member with ⟨plain, asMeant⟩
    exact ⟨isBareWord_iff.mpr ⟨plain, noNul entry member⟩, asMeant⟩
  · intro all
    have noNul : forall entry, entry ∈ configuration.entries port connectTimeout ->
        (0 : Byte) ∉ entry.written :=
      fun entry member => (isBareWord_iff.mp (all entry member).1).2
    rw [connectionSettings_loaded noNul]
    exact line.mpr fun entry member =>
      ⟨(isBareWord_iff.mp (all entry member).1).1, (all entry member).2⟩

theorem isPlain_iff_entries (portLoaded : port.toInt = configuration.port ↔ FitsInt configuration.port)
    (timeoutLoaded : connectTimeout.toInt = configuration.connectTimeout ↔
      FitsInt configuration.connectTimeout) :
    (forall entry, entry ∈ configuration.entries port connectTimeout ->
      IsBareWord entry.written ∧ entry.written = entry.meant) ↔ configuration.IsPlain := by
  simp only [entries, List.forall_mem_cons]
  constructor
  · rintro ⟨⟨host, _⟩, ⟨_, samePort⟩, ⟨dbname, _⟩, ⟨user, _⟩, ⟨password, _⟩, ⟨sslmode, _⟩,
      ⟨_, sameTimeout⟩, _⟩
    exact {
      host, dbname, user, password, sslmode
      port := portLoaded.mp (intText_injective samePort)
      connectTimeout := timeoutLoaded.mp (intText_injective sameTimeout) }
  · intro plain
    have samePort := portLoaded.mpr plain.port
    have sameTimeout := timeoutLoaded.mpr plain.connectTimeout
    exact ⟨⟨plain.host, trivial⟩, ⟨isBareWord_intText _, congrArg intText samePort⟩,
      ⟨plain.dbname, trivial⟩, ⟨plain.user, trivial⟩, ⟨plain.password, trivial⟩,
      ⟨plain.sslmode, trivial⟩,
      ⟨isBareWord_intText _, congrArg intText sameTimeout⟩,
      fun entry member => absurd member List.not_mem_nil⟩

end Configuration

/-! ## Carrying the configuration -/

/-- A described configuration is loaded, its numbers as themselves exactly if
they fit. -/
theorem Describes.loads {cfg : Json} {configuration : Configuration}
    (describes : Describes cfg configuration) : Exists fun port => Exists fun connectTimeout =>
      (forall path prior, (loadConfig path (.parsed cfg)).run prior =
        (.ok (), configuration.loaded port connectTimeout)) ∧
      (port.toInt = configuration.port ↔ FitsInt configuration.port) ∧
      (connectTimeout.toInt = configuration.connectTimeout ↔
        FitsInt configuration.connectTimeout) := by
  rcases describes.port with ⟨number, knownPort, isPort⟩
  rcases describes.connectTimeout with ⟨seconds, knownTimeout, isTimeout⟩
  rcases isPort.getInt with ⟨port, readPort, portLoaded⟩
  rcases isTimeout.getInt with ⟨connectTimeout, readTimeout, timeoutLoaded⟩
  refine ⟨port, connectTimeout, fun path prior => ?_, portLoaded, timeoutLoaded⟩
  exact loadConfig_filled (Json.value_of_member describes.host)
    ((Json.value_of_member knownPort).trans readPort) (Json.value_of_member describes.dbname)
    (Json.value_of_member describes.user) (Json.value_of_member describes.password)
    (Json.value_of_member describes.sslmode)
    ((Json.value_of_member knownTimeout).trans readTimeout) prior

/-- The words and numbers that have to be plain. -/
theorem isPlain_of_carriesFaithfully {path : String} {prior : DBConnection} {cfg : Json}
    {configuration : Configuration} (describes : Describes cfg configuration)
    (carries : CarriesFaithfully path prior cfg configuration) : configuration.IsPlain := by
  rcases describes.loads with ⟨port, connectTimeout, load, portLoaded, timeoutLoaded⟩
  rcases carries with ⟨loaded, success, settings, read, perm⟩
  rw [load path prior, Prod.mk.injEq] at success
  rw [← success.2] at read
  exact (Configuration.isPlain_iff_entries portLoaded timeoutLoaded).mp
    (Configuration.connectionSettings_perm_iff.mp ⟨settings, read, perm⟩)

/-- The connection string carries the configuration exactly if that needs
neither quotes nor escapes and its numbers fit an `int`. -/
theorem carriesFaithfully_iff {path : String} {prior : DBConnection} {cfg : Json}
    {configuration : Configuration} (describes : Describes cfg configuration) :
    CarriesFaithfully path prior cfg configuration ↔ configuration.IsPlain := by
  refine ⟨isPlain_of_carriesFaithfully describes, fun plain => ?_⟩
  rcases describes.loads with ⟨port, connectTimeout, load, portLoaded, timeoutLoaded⟩
  have all := (Configuration.isPlain_iff_entries portLoaded timeoutLoaded).mpr plain
  exact ⟨_, load path prior, Configuration.connectionSettings_perm_iff.mpr all⟩

/-! ## The shipped file -/

/-- The contents of the shipped file but for the password. -/
def shippedConfiguration (password : List Byte) : Configuration where
  host := ascii "localhost"
  port := 5432
  dbname := ascii "database1"
  user := ascii "postgres"
  password := password
  sslmode := ascii "disable"
  connectTimeout := 5

def shippedFile (password : List Byte) : Json :=
  .object [(ascii "host", .string (ascii "localhost")),
    (ascii "port", .integer 5432),
    (ascii "dbname", .string (ascii "database1")),
    (ascii "user", .string (ascii "postgres")),
    (ascii "password", .string password),
    (ascii "sslmode", .string (ascii "disable")),
    (ascii "connect_timeout", .integer 5)]

theorem describes_shippedFile (password : List Byte) :
    Describes (shippedFile password) (shippedConfiguration password) where
  host := rfl
  port := ⟨.integer 5432, rfl, .stored (show -2 ^ 63 ≤ (5432 : ℤ) ∧ (5432 : ℤ) < 2 ^ 64 by decide)⟩
  dbname := rfl
  user := rfl
  password := rfl
  sslmode := rfl
  connectTimeout := ⟨.integer 5, rfl, .stored (show -2 ^ 63 ≤ (5 : ℤ) ∧ (5 : ℤ) < 2 ^ 64 by decide)⟩

/-- With a password the shipped file is carried. -/
theorem carriesFaithfully_iff_secret :
    CarriesFaithfully "config/db_credential.json" DBConnection.initial
      (shippedFile (ascii "secret")) (shippedConfiguration (ascii "secret")) :=
  (carriesFaithfully_iff (describes_shippedFile (ascii "secret"))).mpr
    { host := isBareWord_of_all (by decide) (by decide)
      port := ⟨by decide, by decide⟩
      dbname := isBareWord_of_all (by decide) (by decide)
      user := isBareWord_of_all (by decide) (by decide)
      password := isBareWord_of_all (by decide) (by decide)
      sslmode := isBareWord_of_all (by decide) (by decide)
      connectTimeout := ⟨by decide, by decide⟩ }

/-- As it is shipped, with an empty password, it is not. -/
theorem not_carriesFaithfully_of_every_file :
    ¬ forall path prior cfg configuration, Describes cfg configuration ->
      CarriesFaithfully path prior cfg configuration := by
  intro all
  have carries := all "config/db_credential.json" DBConnection.initial (shippedFile [])
    (shippedConfiguration []) (describes_shippedFile [])
  exact (isPlain_of_carriesFaithfully (describes_shippedFile []) carries).password.filled rfl

end CoreBank
