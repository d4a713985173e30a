import CoreBank.Foundation.Raising
import CoreBank.Server.Configuration
import CoreBank.Server.Lifecycle
import CoreBank.Server.WellFormedCommands

namespace CoreBank

open Foundation

/-!
# From the command line to the listening socket

The host and the port are texts on the command line.  `parseArgs` keeps the
host as it is and makes a number of the port with `atoi`, the constructor of
the server stores both, and `start` gives the port to `bind`.  It does not give
it the host: the address of every socket is `INADDR_ANY`.

`atoi` stops at the first byte that does not belong to the number and says
nothing about the rest, so a port text with a number in front passes the check
of the range.
-/

/-! ## Addresses and what the arguments mean -/

structure Ipv4 where
  first : UInt8
  second : UInt8
  third : UInt8
  fourth : UInt8
  deriving DecidableEq, Repr

namespace Ipv4

/-- `INADDR_ANY`: all interfaces. -/
def inaddrAny : Ipv4 :=
  ⟨0, 0, 0, 0⟩

/-- The dotted quad of an address. -/
def text (address : Ipv4) : List Byte :=
  intText address.first.toNat ++ 46 :: (intText address.second.toNat ++ 46 ::
    (intText address.third.toNat ++ 46 :: intText address.fourth.toNat))

end Ipv4

/-- The address of a socket. -/
structure SocketAddress where
  ip : Ipv4
  port : UInt16
  deriving DecidableEq, Repr

/-- What the program is told by the platform: the `int` that `atoi` returns for
an integer that no `int` holds, and the addresses of the names of hosts. -/
structure Platform where
  unrepresentable : ℤ -> Int32
  lookup : List Byte -> List Ipv4

/-- A host text names an address: a dotted quad its own, and another text those
that it is looked up to. -/
def Platform.Names (platform : Platform) (host : List Byte) (address : Ipv4) : Prop :=
  host = address.text ∨ (forall other : Ipv4, host ≠ other.text) ∧ address ∈ platform.lookup host

/-- A port text is in full a decimal number from 1 to 65535. -/
def IsPort (text : List Byte) : Prop :=
  Exists fun port => integerValue text = some port ∧ 1 ≤ port ∧ port ≤ 65535

/-! ## Reading the arguments -/

/-- The integer at the front of a text, behind white space; zero if there is
none. -/
def leadingInteger (text : List Byte) : ℤ :=
  let (negative, rest) := splitSign (text.dropWhile isSpace)
  let magnitude : ℤ := digitsValue (rest.takeWhile isDigit)
  if negative then -magnitude else magnitude

instance (n : ℤ) : Decidable (FitsInt n) :=
  inferInstanceAs (Decidable (_ ∧ _))

def Platform.atoi (platform : Platform) (text : List Byte) : Int32 :=
  if FitsInt (leadingInteger text) then Int32.ofInt (leadingInteger text)
  else platform.unrepresentable (leadingInteger text)

/-- The host and the port; `argv[0]` is the name of the program. -/
def parseArgs (platform : Platform) (argv : List (List Byte)) :
    Except (List Byte) (List Byte × Int32) :=
  let hostOut := argv[1]?.getD (ascii "0.0.0.0")
  match argv[2]? with
  | none => .ok (hostOut, 8080)
  | some text =>
      let portOut := platform.atoi text
      if portOut ≤ 0 ∨ portOut > 65535 then .error (ascii "Invalid port number: " ++ text)
      else .ok (hostOut, portOut)

/-! ## The server -/

/-- The conversion to `uint16_t` on the way to network byte order. -/
def htons (port : Int32) : UInt16 :=
  UInt16.ofInt port.toInt

/-- The server with what it was constructed from, and the address that its
listening socket is bound to. -/
structure TcpServer extends Server where
  hostBind : List Byte
  portBind : Int32
  boundTo : Option SocketAddress
  deriving DecidableEq, Repr

/-- What a new socket is bound to when the attempt to listen is over. -/
def Listening.bound (address : SocketAddress) : Listening -> Option SocketAddress
  | .socketFails | .bindFails => none
  | .listenFails | .listens => some address

namespace TcpServer

/-- `Server(host, port)`. -/
def constructed (host : List Byte) (port : Int32) : TcpServer where
  toServer := Server.constructed
  hostBind := host
  portBind := port
  boundTo := none

/-- `addr` in `start`. -/
def addr (server : TcpServer) : SocketAddress where
  ip := Ipv4.inaddrAny
  port := htons server.portBind

def start (server : TcpServer) (outcome : Listening) : Except String Unit × TcpServer :=
  let (result, started) := server.toServer.start outcome
  (result, { server with
    toServer := started
    boundTo := if server.running then server.boundTo else outcome.bound server.addr })

/-- The server holds an open socket, bound to the address. -/
def ListensAt (server : TcpServer) (address : SocketAddress) : Prop :=
  server.HoldsOpenSocket ∧ server.boundTo = some address

end TcpServer

/-! ## The main program -/

/-- What `main` meets: the configuration file, whether the client library opens
a connection or throws, whether the connection is still open a moment later,
and the outcomes of the system calls. -/
structure Surroundings where
  file : ConfigFile
  connection : List Byte -> Except String Bool
  isConnected : Bool
  listening : Listening

/-- `DBConnection::connect` on a connection that has none yet. -/
def Surroundings.connect (surroundings : Surroundings) (db : DBConnection) :
    Except (List Byte) Unit :=
  match surroundings.connection db.connectionString with
  | .error what => .error (ascii ("Connection error: " ++ what))
  | .ok false => .error (ascii "Connection error: Database connection failed.")
  | .ok true => .ok ()

/-- How `main` ends without a listening server. -/
inductive Ending where
  | notConnected
  | fatal (what : List Byte)
  deriving DecidableEq, Repr

/-- What is printed on the error output. -/
def Ending.message : Ending -> List Byte
  | .notConnected => ascii "[Main] Failed to connect to the database.\n"
  | .fatal what => ascii "[FATAL] " ++ what ++ ascii "\n"

/-- The part of `main` that concerns the database. -/
def connectDatabase (surroundings : Surroundings) : Except Ending Unit :=
  match (loadConfig "config/db_credential.json" surroundings.file).run DBConnection.initial with
  | (.error problem, _) => .error (.fatal (ascii problem.what))
  | (.ok (), db) =>
      match surroundings.connect db with
      | .error what => .error (.fatal what)
      | .ok () => if surroundings.isConnected then .ok () else .error .notConnected

/-- `main` up to the point where it waits for Enter. -/
def main (platform : Platform) (argv : List (List Byte)) (surroundings : Surroundings) :
    Except Ending TcpServer := do
  let (host, port) <- (parseArgs platform argv).mapError .fatal
  connectDatabase surroundings
  match (TcpServer.constructed host port).start surroundings.listening with
  | (.error what, _) => throw (.fatal (ascii what))
  | (.ok (), server) => pure server

/-! ## Dotted quads -/

theorem isDigit_of_intText {n : ℕ} {byte : Byte} (member : byte ∈ intText n) : isDigit byte = true := by
  have whole := naturalValue_toString n
  rw [naturalValue] at whole
  split_ifs at whole with digits
  exact List.all_eq_true.mp digits.2 byte member

theorem dot_notMem_intText (n : ℕ) : (46 : Byte) ∉ intText n := by
  intro member
  exact absurd (isDigit_of_intText member) (by decide)

theorem octet_injective {first second : UInt8} (same : intText first.toNat = intText second.toNat) :
    first = second :=
  UInt8.toNat_inj.mp (Int.ofNat.inj (intText_injective same))

theorem takeWhile_to_dot (n : ℕ) (rest : List Byte) :
    (intText n ++ 46 :: rest).takeWhile (fun byte => decide (byte ≠ 46)) = intText n := by
  have solid : forall byte, byte ∈ intText n -> decide (byte ≠ 46) = true := by
    intro byte member
    exact decide_eq_true fun same => dot_notMem_intText n (same ▸ member)
  rw [List.takeWhile_append_of_pos solid, List.takeWhile_cons_of_neg (by simp), List.append_nil]

theorem cut_at_dot {n m : ℕ} {rest other : List Byte}
    (same : intText n ++ 46 :: rest = intText m ++ 46 :: other) :
    intText n = intText m ∧ rest = other := by
  have front := congrArg (List.takeWhile fun byte => decide (byte ≠ 46)) same
  rw [takeWhile_to_dot, takeWhile_to_dot] at front
  rw [front] at same
  exact ⟨front, (List.cons.inj (List.append_cancel_left same)).2⟩

theorem Ipv4.text_injective {left right : Ipv4} (same : left.text = right.text) : left = right := by
  rcases cut_at_dot same with ⟨first, same⟩
  rcases cut_at_dot same with ⟨second, same⟩
  rcases cut_at_dot same with ⟨third, fourth⟩
  cases left
  cases right
  rw [Ipv4.mk.injEq]
  exact ⟨octet_injective first, octet_injective second, octet_injective third, octet_injective fourth⟩

/-- A dotted quad is never looked up. -/
theorem Platform.names_text_iff (platform : Platform) (quad address : Ipv4) :
    platform.Names quad.text address ↔ address = quad := by
  constructor
  · rintro (same | ⟨other, _⟩)
    · exact (Ipv4.text_injective same).symm
    · exact absurd rfl (other quad)
  · rintro rfl
    exact Or.inl rfl

/-! ## Ports -/

/-- A text that is in full an integer is read as that integer. -/
theorem leadingInteger_of_integerValue {text : List Byte} {value : ℤ}
    (whole : integerValue text = some value) : leadingInteger text = value := by
  rcases integerValue_eq_some whole with ⟨sign, digits, rfl, part, filled, digit, rfl⟩
  have word : IsWord (sign ++ digits) :=
    isWord_append part filled fun byte member => (digit_ne (digit byte member)).1
  have starts : (sign ++ digits).dropWhile isSpace = sign ++ digits := by
    rcases List.exists_cons_of_ne_nil word.filled with ⟨byte, rest, split⟩
    rw [split]
    have solid := word.solid byte (by rw [split]; exact List.mem_cons_self)
    exact List.dropWhile_cons_of_neg (by simp [solid])
  have unsigned := unsigned_of_digits filled digit []
  rw [List.append_nil] at unsigned
  have taken : digits.takeWhile isDigit = digits := List.takeWhile_eq_self_iff.mpr digit
  simp only [leadingInteger, starts, splitSign_append part unsigned, taken, signedValue,
    decide_eq_true_eq]

/-- A number that `parseArgs` accepts as a port. -/
def InPortRange (port : Int32) : Prop :=
  1 ≤ port.toInt ∧ port.toInt ≤ 65535

theorem not_inPortRange_iff (port : Int32) : (port ≤ 0 ∨ port > 65535) ↔ ¬ InPortRange port := by
  have zero : (0 : Int32).toInt = 0 := rfl
  have highest : (65535 : Int32).toInt = 65535 := rfl
  rw [InPortRange, Int32.le_iff_toInt_le, gt_iff_lt, Int32.lt_iff_toInt_lt, zero, highest]
  omega

theorem Platform.atoi_of_integerValue (platform : Platform) {text : List Byte} {value : ℤ}
    (whole : integerValue text = some value) (fits : FitsInt value) :
    (platform.atoi text).toInt = value := by
  have fitting : FitsInt (leadingInteger text) := leadingInteger_of_integerValue whole ▸ fits
  rw [Platform.atoi, if_pos fitting, (toInt_ofInt_eq_iff _).mpr fitting,
    leadingInteger_of_integerValue whole]

/-- A port text is read as the port. -/
theorem Platform.atoi_of_isPort (platform : Platform) {text : List Byte} (isPort : IsPort text) :
    InPortRange (platform.atoi text) ∧ integerValue text = some (platform.atoi text).toInt := by
  rcases isPort with ⟨port, whole, low, high⟩
  have fits : FitsInt port := ⟨by omega, by omega⟩
  rw [InPortRange, platform.atoi_of_integerValue whole fits]
  exact ⟨⟨low, high⟩, whole⟩

/-- A port in the range is not changed on the way to `bind`. -/
theorem htons_toNat {port : Int32} (inRange : InPortRange port) :
    ((htons port).toNat : ℤ) = port.toInt := by
  rcases inRange with ⟨low, high⟩
  rw [htons, UInt16.ofInt, UInt16.toNat_ofNat']
  omega

/-! ## What main does -/

/-- What the port argument has to be for `parseArgs` to return a port. -/
def Platform.ReadsPort (platform : Platform) (port : Int32) : Option (List Byte) -> Prop
  | none => port = 8080
  | some text => port = platform.atoi text ∧ InPortRange port

theorem parseArgs_eq_ok_iff {platform : Platform} {argv : List (List Byte)} {host : List Byte}
    {port : Int32} :
    parseArgs platform argv = .ok (host, port) ↔
      host = argv[1]?.getD (ascii "0.0.0.0") ∧ platform.ReadsPort port argv[2]? := by
  unfold parseArgs
  cases argv[2]? with
  | none =>
      simp only [Except.ok.injEq, Prod.mk.injEq, Platform.ReadsPort]
      exact and_congr eq_comm eq_comm
  | some text =>
      dsimp only [Platform.ReadsPort]
      split_ifs with refused
      · rw [not_inPortRange_iff] at refused
        refine ⟨nofun, ?_⟩
        rintro ⟨_, rfl, inRange⟩
        exact absurd inRange refused
      · rw [not_inPortRange_iff, not_not] at refused
        rw [Except.ok.injEq, Prod.mk.injEq]
        constructor
        · rintro ⟨rfl, rfl⟩
          exact ⟨rfl, rfl, refused⟩
        · rintro ⟨rfl, rfl, _⟩
          exact ⟨rfl, rfl⟩

/-- Only the port argument can be refused. -/
theorem exists_parseArgs_iff (platform : Platform) (argv : List (List Byte)) :
    (Exists fun parsed => parseArgs platform argv = .ok parsed) ↔
      forall text, argv[2]? = some text -> InPortRange (platform.atoi text) := by
  constructor
  · rintro ⟨⟨host, port⟩, parsed⟩ text given
    have reads := (parseArgs_eq_ok_iff.mp parsed).2
    rw [given] at reads
    exact reads.1 ▸ reads.2
  · intro accepted
    cases given : argv[2]? with
    | none => exact ⟨(_, 8080), parseArgs_eq_ok_iff.mpr ⟨rfl, by rw [given]; exact rfl⟩⟩
    | some text =>
        refine ⟨(_, platform.atoi text), parseArgs_eq_ok_iff.mpr ⟨rfl, ?_⟩⟩
        rw [given]
        exact ⟨rfl, accepted text given⟩

/-- The server after a first `start` that gets to listen. -/
def TcpServer.listening (host : List Byte) (port : Int32) : TcpServer :=
  ((TcpServer.constructed host port).start .listens).2

theorem TcpServer.listensAt_listening (host : List Byte) (port : Int32) (address : SocketAddress) :
    (TcpServer.listening host port).ListensAt address ↔ address = ⟨Ipv4.inaddrAny, htons port⟩ := by
  have listens : (TcpServer.listening host port).toServer.Listens 0 :=
    Server.stopped_constructed.start
  have holds := (listens.consistent.mp listens.running).1
  constructor
  · rintro ⟨_, bound⟩
    exact (Option.some.inj bound).symm
  · rintro rfl
    exact ⟨holds, rfl⟩

theorem main_eq_ok_iff {platform : Platform} {argv : List (List Byte)} {surroundings : Surroundings}
    {server : TcpServer} :
    main platform argv surroundings = .ok server ↔
      Exists fun host => Exists fun port => parseArgs platform argv = .ok (host, port) ∧
        connectDatabase surroundings = .ok () ∧ surroundings.listening = .listens ∧
        server = TcpServer.listening host port := by
  unfold main
  rw [bind_eq_ok_iff]
  constructor
  · rintro ⟨⟨host, port⟩, parsed, rest⟩
    rcases bind_eq_ok_iff.mp rest with ⟨_, connected, started⟩
    refine ⟨host, port, mapError_eq_ok_iff.mp parsed, connected, ?_⟩
    cases outcome : surroundings.listening with
    | listens =>
        rw [outcome] at started
        cases started
        exact ⟨rfl, rfl⟩
    | _ =>
        rw [outcome] at started
        cases started
  · rintro ⟨host, port, parsed, connected, outcome, rfl⟩
    refine ⟨(host, port), mapError_eq_ok_iff.mpr parsed, bind_eq_ok_iff.mpr ⟨(), connected, ?_⟩⟩
    rw [outcome]
    rfl

/-- Surroundings in which nothing fails. -/
def Surroundings.favourable : Surroundings where
  file := .parsed (shippedFile [])
  connection := fun _ => .ok true
  isConnected := true
  listening := .listens

theorem connectDatabase_favourable : connectDatabase Surroundings.favourable = .ok () :=
  rfl

/-! ## Listening where it was told -/

/-- In all surroundings `main` fails or listens at the host and the port of the
command line, and it takes exactly the port texts for ports. -/
structure ListensWhereTold (platform : Platform) (argv : List (List Byte)) : Prop where
  bound : forall surroundings server, main platform argv surroundings = .ok server ->
    Exists fun address => server.ListensAt address ∧
      (forall host, argv[1]? = some host -> platform.Names host address.ip) ∧
      forall text, argv[2]? = some text -> integerValue text = some (address.port.toNat : ℤ)
  accepts : forall text, argv[2]? = some text ->
    ((Exists fun parsed => parseArgs platform argv = .ok parsed) ↔ IsPort text)

/-- The port argument is one that `parseArgs` refuses. -/
def RefusesPort (platform : Platform) (argv : List (List Byte)) : Prop :=
  Exists fun text => argv[2]? = some text ∧ ¬ InPortRange (platform.atoi text)

/-- The port argument is in full a port, and the host argument stands for all
interfaces. -/
structure AsksForAllInterfaces (platform : Platform) (argv : List (List Byte)) : Prop where
  host : forall host, argv[1]? = some host -> platform.Names host Ipv4.inaddrAny
  port : forall text, argv[2]? = some text -> IsPort text

theorem RefusesPort.listensWhereTold {platform : Platform} {argv : List (List Byte)}
    (refuses : RefusesPort platform argv) : ListensWhereTold platform argv := by
  rcases refuses with ⟨text, given, outside⟩
  have fails : ¬ Exists fun parsed => parseArgs platform argv = .ok parsed := by
    rw [exists_parseArgs_iff]
    exact fun accepted => outside (accepted text given)
  constructor
  · intro surroundings server success
    rcases main_eq_ok_iff.mp success with ⟨host, port, parsed, _⟩
    exact absurd ⟨_, parsed⟩ fails
  · intro other same
    rw [given] at same
    cases same
    constructor
    · intro parsed
      exact absurd parsed fails
    · intro isPort
      exact absurd (platform.atoi_of_isPort isPort).1 outside

theorem AsksForAllInterfaces.listensWhereTold {platform : Platform} {argv : List (List Byte)}
    (asks : AsksForAllInterfaces platform argv) : ListensWhereTold platform argv := by
  constructor
  · intro surroundings server success
    rcases main_eq_ok_iff.mp success with ⟨host, port, parsed, _, _, rfl⟩
    refine ⟨_, (TcpServer.listensAt_listening host port _).mpr rfl, asks.host, ?_⟩
    intro text given
    have reads := (parseArgs_eq_ok_iff.mp parsed).2
    rw [given] at reads
    rcases reads with ⟨rfl, inRange⟩
    rw [htons_toNat inRange]
    exact (platform.atoi_of_isPort (asks.port text given)).2
  · intro text given
    refine ⟨fun _ => asks.port text given, fun _ => ?_⟩
    rw [exists_parseArgs_iff]
    intro other same
    exact (platform.atoi_of_isPort (asks.port other same)).1

/-- The server listens where it was told exactly if its port argument is
refused, or is in full a port while the host argument stands for all
interfaces. -/
theorem listensWhereTold_iff (platform : Platform) (argv : List (List Byte)) :
    ListensWhereTold platform argv ↔
      RefusesPort platform argv ∨ AsksForAllInterfaces platform argv := by
  constructor
  · intro told
    by_cases refuses : RefusesPort platform argv
    · exact Or.inl refuses
    · have accepted : Exists fun parsed => parseArgs platform argv = .ok parsed := by
        rw [exists_parseArgs_iff]
        intro text given
        by_contra outside
        exact refuses ⟨text, given, outside⟩
      rcases accepted with ⟨⟨host, port⟩, parsed⟩
      have success : main platform argv Surroundings.favourable = .ok (TcpServer.listening host port) :=
        main_eq_ok_iff.mpr ⟨host, port, parsed, connectDatabase_favourable, rfl, rfl⟩
      rcases told.bound _ _ success with ⟨address, listens, names, _⟩
      rw [TcpServer.listensAt_listening] at listens
      subst listens
      exact Or.inr ⟨names, fun text given => (told.accepts text given).mp ⟨_, parsed⟩⟩
  · rintro (refuses | asks)
    · exact refuses.listensWhereTold
    · exact asks.listensWhereTold

/-- `atoi` keeps the low bits of what `strtol` returns, and the one name is that
of the loopback interface. -/
def commonPlatform : Platform where
  unrepresentable value := Int32.ofInt (max (-2 ^ 63) (min value (2 ^ 63 - 1)))
  lookup name := if name = ascii "localhost" then [⟨127, 0, 0, 1⟩] else []

/-- The arguments of the usage comment end on all interfaces, and a port text
with letters in it is taken for a port. -/
theorem not_listensWhereTold :
    ¬ ListensWhereTold commonPlatform [ascii "./server", ascii "127.0.0.1", ascii "6000"] ∧
      ¬ ListensWhereTold commonPlatform [ascii "./server", ascii "0.0.0.0", ascii "80abc"] := by
  constructor
  · intro told
    have success : main commonPlatform [ascii "./server", ascii "127.0.0.1", ascii "6000"]
        Surroundings.favourable = .ok (TcpServer.listening (ascii "127.0.0.1") 6000) := by
      refine main_eq_ok_iff.mpr ⟨_, _, ?_, connectDatabase_favourable, rfl, rfl⟩
      decide +kernel
    rcases told.bound _ _ success with ⟨address, listens, names, _⟩
    rw [TcpServer.listensAt_listening] at listens
    subst listens
    have quad : ascii "127.0.0.1" = (⟨127, 0, 0, 1⟩ : Ipv4).text := by decide +kernel
    have loopback := names _ rfl
    rw [quad, Platform.names_text_iff] at loopback
    exact absurd loopback (by decide)
  · intro told
    have refused : ¬ IsPort (ascii "80abc") := by
      rintro ⟨port, whole, _⟩
      have none : integerValue (ascii "80abc") = none := by decide +kernel
      rw [none] at whole
      cases whole
    have parsed : parseArgs commonPlatform [ascii "./server", ascii "0.0.0.0", ascii "80abc"] =
        .ok (ascii "0.0.0.0", 80) := by
      decide +kernel
    exact refused ((told.accepts _ rfl).mp ⟨_, parsed⟩)

end CoreBank
