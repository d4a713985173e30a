import CoreBank.Foundation.Handles
import CoreBank.Foundation.HeadedMessages
import CoreBank.Foundation.Runs
import CoreBank.Server.CommandLine
import Mathlib.Algebra.GroupWithZero.Nat
import Mathlib.Logic.Function.Basic

namespace CoreBank

open Foundation

/-!
# The demo server

The demo server answers every connection with one page over HTTP, one client
after the other, in the thread that accepts them.  Any of its system calls may
fail, and `send` may take a part of what it is given.  It is sent without
`MSG_NOSIGNAL`, so a client that is gone may end the process.

What a client has been sent is at any time the beginning of the response, and
the response says how long it is.  A client can therefore tell the page from a
part of it.
-/

/-! ## The response -/

namespace DemoServer

/-- `body` in `handleClient`. -/
def page : List Byte :=
  ascii "<!DOCTYPE html>\n" ++
  ascii "<html>\n" ++
  ascii "<head><title>Demo C++ Tiny Server</title></head>\n" ++
  ascii "<body>\n" ++
  ascii "    <h1> Hello World! From my C++ Server! :D</h1>\n" ++
  ascii "    <p> This is a tiny HTTP server using UNIX raw sockets</p>\n" ++
  ascii "    <p> Thank you very much, Victor Correa</p>\n" ++
  ascii "</body>\n" ++
  ascii "</html>\n"

/-- `response`, with any body. -/
def response (body : List Byte) : List Byte :=
  ascii "HTTP/1.1 200 OK\r\n" ++
  ascii "Content-Type: text/html; charset=UTF-8\r\n" ++
  (ascii "Content-Length: " ++ intText body.length ++ ascii "\r\n") ++
  ascii "Connection: close\r\n" ++
  ascii "\r\n" ++
  body

/-- The number in a `Content-Length` line. -/
def contentLength (line : List Byte) : Option ℕ :=
  if ascii "Content-Length: " <+: line then
    naturalValue (line.drop (ascii "Content-Length: ").length)
  else none

/-- How a client reads a response. -/
def http : MessageSyntax Byte where
  carriageReturn := carriageReturn
  lineFeed := lineFeed
  bodyLength lines := lines.findSome? contentLength

/-- The status line and the headers. -/
def headLines (length : ℕ) : List (List Byte) :=
  [ascii "HTTP/1.1 200 OK",
    ascii "Content-Type: text/html; charset=UTF-8",
    ascii "Content-Length: " ++ intText length,
    ascii "Connection: close"]

theorem response_eq (body : List Byte) : response body = http.write (headLines body.length) body := by
  have status : ascii "HTTP/1.1 200 OK\r\n" = ascii "HTTP/1.1 200 OK" ++ http.lineEnd := by decide
  have type : ascii "Content-Type: text/html; charset=UTF-8\r\n" =
      ascii "Content-Type: text/html; charset=UTF-8" ++ http.lineEnd := by decide
  have connection : ascii "Connection: close\r\n" = ascii "Connection: close" ++ http.lineEnd := by decide
  have ends : ascii "\r\n" = http.lineEnd := by decide
  simp only [response, MessageSyntax.write, headLines, List.flatMap_cons, List.flatMap_nil,
    List.append_nil, status, type, connection, ends, List.append_assoc]

theorem areLines_headLines (length : ℕ) : http.AreLines (headLines length) := by
  have noFeed : lineFeed ∉ ascii "Content-Length: " ++ intText length := by
    intro member
    rcases List.mem_append.mp member with name | digits
    · exact absurd name (by decide)
    · exact absurd (isDigit_of_intText digits) (by decide)
  intro line member
  rcases List.mem_cons.mp member with rfl | member
  · exact ⟨by decide, by decide⟩
  rcases List.mem_cons.mp member with rfl | member
  · exact ⟨by decide, by decide⟩
  rcases List.mem_cons.mp member with rfl | member
  · exact ⟨List.append_ne_nil_of_left_ne_nil (by decide) _, noFeed⟩
  · rw [List.mem_singleton.mp member]
    exact ⟨by decide, by decide⟩

theorem bodyLength_headLines (length : ℕ) : http.bodyLength (headLines length) = some length := by
  have status : contentLength (ascii "HTTP/1.1 200 OK") = none := by decide
  have type : contentLength (ascii "Content-Type: text/html; charset=UTF-8") = none := by decide
  have given : contentLength (ascii "Content-Length: " ++ intText length) = some length := by
    rw [contentLength, if_pos (List.prefix_append _ _), List.drop_left]
    exact naturalValue_toString length
  simp only [http, headLines, List.findSome?_cons, status, type, given]

/-- A client that has a part of the response reads nothing from it, and from
the response it reads the page. -/
theorem read_of_prefix {body got : List Byte} (arrived : got <+: response body) :
    http.read got =
      if got = response body then some (headLines body.length, body, []) else none := by
  have distinct : http.carriageReturn ≠ http.lineFeed := by decide
  have lines := areLines_headLines body.length
  have length := bodyLength_headLines body.length
  split_ifs with whole
  · have read := MessageSyntax.read_write distinct lines length []
    rw [List.append_nil, ← response_eq] at read
    rw [whole, read]
  · rw [response_eq] at arrived whole
    exact MessageSyntax.read_part distinct lines length arrived whole

/-! ## The server -/

/-- The outcomes of `socket`, `setsockopt`, `bind` and `listen` in one `init`. -/
inductive InitOutcome where
  | socketFails
  | setsockoptFails
  | bindFails
  | listenFails
  | listens
  deriving DecidableEq, Repr

/-- The outcome of `send`: an error, a number of bytes that are taken, or the
signal that ends the process. -/
inductive SendOutcome where
  | fails
  | takes (count : ℕ)
  | brokenPipe
  deriving DecidableEq, Repr

/-- Where the thread stands: outside `run`, or in front of a system call. -/
inductive DemoStage where
  | constructed
  | returned (code : ℤ)
  | accepting
  | receiving (clientfd : ℕ)
  | sending (clientfd : ℕ) (left : List Byte)
  | killed (clientfd : ℕ)
  | destroyed
  deriving DecidableEq, Repr

/-- How a client has been left. -/
inductive ClientEnd where
  | served
  | recvFailed
  | sendFailed
  deriving DecidableEq, Repr

end DemoServer

open DemoServer in
/-- The fields of the server, with the system calls it has made, the texts it
has printed, and what each client has been sent.  A descriptor is given a new
number each time. -/
structure DemoServer where
  portm : Int32
  serverfd : Option ℕ
  stage : DemoStage
  issued : ℕ
  calls : List (HandleCall ℕ)
  printed : List (List Byte)
  delivered : ℕ -> List Byte
  ended : ℕ -> Option ClientEnd

namespace DemoServer

/-- `Server(port)`. -/
def construct (port : Int32) : DemoServer where
  portm := port
  serverfd := none
  stage := .constructed
  issued := 0
  calls := []
  printed := []
  delivered _ := []
  ended _ := none

def call (server : DemoServer) (systemCall : HandleCall ℕ) : DemoServer :=
  { server with calls := server.calls ++ [systemCall] }

/-- A call that returns a new descriptor. -/
def issue (server : DemoServer) : DemoServer :=
  { server with
    issued := server.issued + 1
    calls := server.calls ++ [.opens server.issued] }

/-- `socket()` succeeds, and `serverfd` is the new descriptor. -/
def socket (server : DemoServer) : DemoServer :=
  { server.issue with serverfd := some server.issued }

/-- A call on the listening socket. -/
def useSocket (server : DemoServer) : DemoServer :=
  match server.serverfd with
  | none => server
  | some serverfd => server.call (.uses serverfd)

/-- `close(serverfd); serverfd = -1`. -/
def closeSocket (server : DemoServer) : DemoServer :=
  match server.serverfd with
  | none => server
  | some serverfd => { server.call (.closes serverfd) with serverfd := none }

def init (outcome : InitOutcome) (server : DemoServer) : Bool × DemoServer :=
  match outcome with
  | .socketFails => (false, { server with serverfd := none })
  | .setsockoptFails => (false, server.socket.useSocket.closeSocket)
  | .bindFails => (false, server.socket.useSocket.useSocket.closeSocket)
  | .listenFails => (false, server.socket.useSocket.useSocket.useSocket.closeSocket)
  | .listens => (true, server.socket.useSocket.useSocket.useSocket)

/-- `run` up to its loop. -/
def start (outcome : InitOutcome) (server : DemoServer) : DemoServer :=
  match server.init outcome with
  | (false, failed) => { failed with stage := .returned 1 }
  | (true, listening) => { listening with stage := .accepting }

/-- `accept`; after an error the next connection is tried. -/
def accept (succeeds : Bool) (server : DemoServer) : DemoServer :=
  if succeeds then { server.useSocket.issue with stage := .receiving server.issued }
  else server.useSocket

/-- `close(clientfd)`, and back to the loop. -/
def leave (clientfd : ℕ) (how : ClientEnd) (server : DemoServer) : DemoServer :=
  { server.call (.closes clientfd) with
    stage := .accepting
    ended := Function.update server.ended clientfd (some how) }

/-- `recv` fills at most 4095 bytes of the buffer.  The text up to the first
zero is printed, and whatever it was, the page is sent. -/
def recv (clientfd : ℕ) (outcome : Option (List Byte)) (server : DemoServer) : DemoServer :=
  let asked := server.call (.uses clientfd)
  match outcome with
  | none => asked.leave clientfd .recvFailed
  | some bytes =>
      { asked with
        printed := server.printed ++ [cString (bytes.take 4095)]
        stage := .sending clientfd (response page) }

/-- One `send` of what is left of the response. -/
def send (clientfd : ℕ) (left : List Byte) (outcome : SendOutcome) (server : DemoServer) :
    DemoServer :=
  let asked := server.call (.uses clientfd)
  match outcome with
  | .fails => asked.leave clientfd .sendFailed
  | .brokenPipe => { asked with stage := .killed clientfd }
  | .takes count =>
      let given := { asked with
        delivered := Function.update server.delivered clientfd
          (server.delivered clientfd ++ left.take count) }
      if left.drop count = [] then given.leave clientfd .served
      else { given with stage := .sending clientfd (left.drop count) }

/-- The destructor. -/
def destroy (server : DemoServer) : DemoServer :=
  { server.closeSocket with stage := .destroyed }

end DemoServer

open DemoServer in
/-- What happens next: a call of `run` or of the destructor, or the outcome of
the system call that the thread is in. -/
inductive DemoEvent where
  | run (outcome : InitOutcome)
  | accept (succeeds : Bool)
  | recv (outcome : Option (List Byte))
  | send (outcome : SendOutcome)
  | destroy

namespace DemoServer

/-- What happens elsewhere changes nothing. -/
def step (server : DemoServer) (event : DemoEvent) : DemoServer :=
  match server.stage, event with
  | .constructed, .run outcome => server.start outcome
  | .returned _, .run outcome => server.start outcome
  | .accepting, .accept succeeds => server.accept succeeds
  | .receiving clientfd, .recv outcome => server.recv clientfd outcome
  | .sending clientfd left, .send outcome => server.send clientfd left outcome
  | .constructed, .destroy => server.destroy
  | .returned _, .destroy => server.destroy
  | _, _ => server

def after (port : Int32) (events : List DemoEvent) : DemoServer :=
  run step (construct port) events

/-- The client that is being served. -/
def DemoStage.client : DemoStage -> Option ℕ
  | .receiving clientfd | .sending clientfd _ | .killed clientfd => some clientfd
  | _ => none

/-- The thread is in the loop of `run`. -/
def DemoStage.serving : DemoStage -> Bool
  | .constructed | .returned _ | .destroyed => false
  | _ => true

/-- The descriptors in the variables of the program. -/
def held (server : DemoServer) : List ℕ :=
  server.stage.client.toList ++ server.serverfd.toList

/-! ## What every step keeps -/

/-- What the clients have been sent: each the beginning of the response, and all
of it if and only if it has been served. -/
structure Delivers (server : DemoServer) : Prop where
  sent : forall clientfd, server.delivered clientfd <+: response page ∧
    (server.delivered clientfd = response page ↔ server.ended clientfd = some .served)
  fresh : forall clientfd, server.issued ≤ clientfd ->
    server.delivered clientfd = [] ∧ server.ended clientfd = none
  receiving : forall clientfd, server.stage = .receiving clientfd ->
    server.delivered clientfd = [] ∧ server.ended clientfd = none
  sending : forall clientfd left, server.stage = .sending clientfd left ->
    server.delivered clientfd ++ left = response page ∧ left ≠ [] ∧ server.ended clientfd = none

structure Orderly (server : DemoServer) : Prop where
  numbered : Numbered server.calls server.held server.issued
  listens : server.serverfd.isSome = server.stage.serving
  delivers : server.Delivers

theorem response_ne_nil (body : List Byte) : response body ≠ [] := by
  intro empty
  rw [response_eq] at empty
  rw [MessageSyntax.write, List.append_assoc, List.append_eq_nil_iff] at empty
  exact absurd empty.1 (by simp [headLines, MessageSyntax.lineEnd])

theorem orderly_construct (port : Int32) : (construct port).Orderly where
  numbered := Numbered.nil
  listens := rfl
  delivers := {
    sent := fun _ => ⟨List.nil_prefix, fun empty => absurd empty.symm (response_ne_nil page), nofun⟩
    fresh := fun _ _ => ⟨rfl, rfl⟩
    receiving := nofun
    sending := nofun }

/-- Where no client is being served, what has been delivered does not depend on
the rest of the server. -/
theorem Delivers.idle {server other : DemoServer} (delivers : server.Delivers)
    (delivered : other.delivered = server.delivered) (ended : other.ended = server.ended)
    (issued : server.issued ≤ other.issued) (idle : other.stage.client = none) : other.Delivers where
  sent clientfd := by
    rw [delivered, ended]
    exact delivers.sent clientfd
  fresh clientfd later := by
    rw [delivered, ended]
    exact delivers.fresh clientfd (Nat.le_trans issued later)
  receiving clientfd stands := by
    rw [stands] at idle
    cases idle
  sending clientfd left stands := by
    rw [stands] at idle
    cases idle

theorem Orderly.start {server : DemoServer} (orderly : server.Orderly)
    (outside : server.stage.serving = false) (outcome : InitOutcome) : (server.start outcome).Orderly := by
  have unopened : server.serverfd = none := by
    rw [← Option.not_isSome_iff_eq_none, orderly.listens, outside]
    exact Bool.false_ne_true
  have none : server.held = [] := by
    rw [held, unopened]
    cases stands : server.stage with
    | receiving clientfd => rw [stands] at outside; cases outside
    | sending clientfd left => rw [stands] at outside; cases outside
    | killed clientfd => rw [stands] at outside; cases outside
    | _ => rfl
  have numbered := orderly.numbered
  rw [none] at numbered
  have opened := numbered.opens
  have configured := opened.uses List.mem_cons_self
  have bound := configured.uses List.mem_cons_self
  have listening := bound.uses List.mem_cons_self
  cases outcome with
  | socketFails =>
      exact ⟨numbered, rfl, orderly.delivers.idle rfl rfl (Nat.le_refl _) rfl⟩
  | setsockoptFails =>
      exact ⟨configured.closes, rfl, orderly.delivers.idle rfl rfl (Nat.le_succ _) rfl⟩
  | bindFails => exact ⟨bound.closes, rfl, orderly.delivers.idle rfl rfl (Nat.le_succ _) rfl⟩
  | listenFails => exact ⟨listening.closes, rfl, orderly.delivers.idle rfl rfl (Nat.le_succ _) rfl⟩
  | listens => exact ⟨listening, rfl, orderly.delivers.idle rfl rfl (Nat.le_succ _) rfl⟩

theorem Orderly.accept {server : DemoServer} (orderly : server.Orderly)
    (stands : server.stage = .accepting) (succeeds : Bool) : (server.accept succeeds).Orderly := by
  rcases server with ⟨portm, serverfd, stage, issued, calls, printed, delivered, ended⟩
  cases stands
  cases serverfd with
  | none => cases orderly.listens
  | some serverfd =>
      have asked := orderly.numbered.uses List.mem_cons_self
      cases succeeds with
      | false => exact ⟨asked, rfl, orderly.delivers.idle rfl rfl (Nat.le_refl _) rfl⟩
      | true =>
          refine ⟨asked.opens, rfl, orderly.delivers.sent, ?_, ?_, nofun⟩
          · intro clientfd later
            exact orderly.delivers.fresh clientfd (Nat.le_of_succ_le later)
          · intro clientfd receives
            cases receives
            exact orderly.delivers.fresh issued (Nat.le_refl _)

/-- The client is left with its descriptor closed. -/
theorem orderly_leave {server : DemoServer} {clientfd : ℕ} {how : ClientEnd}
    (numbered : Numbered server.calls (clientfd :: server.serverfd.toList) server.issued)
    (listens : server.serverfd.isSome = true)
    (own : server.delivered clientfd <+: response page ∧
      (server.delivered clientfd = response page ↔ how = .served))
    (others : forall other, other ≠ clientfd -> server.delivered other <+: response page ∧
      (server.delivered other = response page ↔ server.ended other = some .served))
    (fresh : forall other, server.issued ≤ other ->
      server.delivered other = [] ∧ server.ended other = none) :
    (server.leave clientfd how).Orderly where
  numbered := numbered.closes
  listens := listens
  delivers := {
    sent := by
      intro other
      by_cases same : other = clientfd
      · subst same
        refine ⟨own.1, own.2.trans ?_⟩
        change _ ↔ Function.update server.ended other (some how) other = some .served
        rw [Function.update_self, Option.some.injEq]
      · refine ⟨(others other same).1, (others other same).2.trans ?_⟩
        change _ ↔ Function.update server.ended clientfd (some how) other = some .served
        rw [Function.update_of_ne same]
    fresh := by
      intro other later
      have different : other ≠ clientfd := by
        have given := numbered.below clientfd List.mem_cons_self
        change server.issued ≤ other at later
        omega
      refine ⟨(fresh other later).1, ?_⟩
      change Function.update server.ended clientfd (some how) other = none
      rw [Function.update_of_ne different]
      exact (fresh other later).2
    receiving := nofun
    sending := nofun }

theorem Orderly.recv {server : DemoServer} (orderly : server.Orderly) {clientfd : ℕ}
    (stands : server.stage = .receiving clientfd) (outcome : Option (List Byte)) :
    (server.recv clientfd outcome).Orderly := by
  rcases server with ⟨portm, serverfd, stage, issued, calls, printed, delivered, ended⟩
  cases stands
  have asked := orderly.numbered.uses List.mem_cons_self
  rcases orderly.delivers.receiving clientfd rfl with ⟨nothing, serving⟩
  change delivered clientfd = [] at nothing
  cases outcome with
  | none =>
      refine orderly_leave asked orderly.listens ⟨?_, ?_⟩ (fun other _ => orderly.delivers.sent other)
        orderly.delivers.fresh
      · exact (orderly.delivers.sent clientfd).1
      · change delivered clientfd = response page ↔ _
        rw [nothing]
        exact ⟨fun empty => absurd empty.symm (response_ne_nil page), nofun⟩
  | some bytes =>
      refine ⟨asked, orderly.listens, orderly.delivers.sent, orderly.delivers.fresh, nofun, ?_⟩
      intro other left sends
      cases sends
      refine ⟨?_, response_ne_nil page, serving⟩
      change delivered clientfd ++ response page = response page
      rw [nothing, List.nil_append]

theorem Orderly.send {server : DemoServer} (orderly : server.Orderly) {clientfd : ℕ}
    {left : List Byte} (stands : server.stage = .sending clientfd left) (outcome : SendOutcome) :
    (server.send clientfd left outcome).Orderly := by
  rcases server with ⟨portm, serverfd, stage, issued, calls, printed, delivered, ended⟩
  cases stands
  have asked := orderly.numbered.uses List.mem_cons_self
  rcases orderly.delivers.sending clientfd left rfl with ⟨whole, missing, serving⟩
  change delivered clientfd ++ left = response page at whole
  have partly : delivered clientfd ≠ response page := by
    intro complete
    rw [complete] at whole
    exact missing (List.append_right_eq_self.mp whole)
  cases outcome with
  | fails =>
      refine orderly_leave asked orderly.listens ⟨(orderly.delivers.sent clientfd).1, ?_⟩
        (fun other _ => orderly.delivers.sent other) orderly.delivers.fresh
      exact ⟨fun complete => absurd complete partly, nofun⟩
  | brokenPipe =>
      exact ⟨asked, orderly.listens, orderly.delivers.sent, orderly.delivers.fresh, nofun, nofun⟩
  | takes count =>
      let now := Function.update delivered clientfd (delivered clientfd ++ left.take count)
      have own : now clientfd = delivered clientfd ++ left.take count := Function.update_self _ _ _
      have others : forall other, other ≠ clientfd -> now other = delivered other :=
        fun other different => Function.update_of_ne different _ _
      have rest : now clientfd ++ left.drop count = response page := by
        rw [own, List.append_assoc, List.take_append_drop, whole]
      have sent : forall other, other ≠ clientfd -> now other <+: response page ∧
          (now other = response page ↔ ended other = some .served) := by
        intro other different
        rw [others other different]
        exact orderly.delivers.sent other
      have fresh : forall other, issued ≤ other -> now other = [] ∧ ended other = none := by
        intro other later
        have different : other ≠ clientfd := by
          have given : clientfd < issued := orderly.numbered.below clientfd List.mem_cons_self
          omega
        rw [others other different]
        exact orderly.delivers.fresh other later
      unfold DemoServer.send
      dsimp only
      split_ifs with done
      · rw [done, List.append_nil] at rest
        refine orderly_leave asked orderly.listens ⟨?_, fun _ => rfl, fun _ => rest⟩ sent fresh
        exact ⟨[], (List.append_nil _).trans rest⟩
      · have further : now clientfd ≠ response page := by
          intro complete
          rw [complete] at rest
          exact done (List.append_right_eq_self.mp rest)
        refine ⟨asked, orderly.listens, ?_, fresh, nofun, ?_⟩
        · intro other
          by_cases same : other = clientfd
          · subst same
            refine ⟨⟨left.drop count, rest⟩, fun complete => absurd complete further, fun served => ?_⟩
            exact absurd (serving.symm.trans served) nofun
          · exact sent other same
        · intro other further sends
          cases sends
          exact ⟨rest, done, serving⟩

theorem Orderly.destroy {server : DemoServer} (orderly : server.Orderly)
    (outside : server.stage.serving = false) : server.destroy.Orderly := by
  rcases server with ⟨portm, serverfd, stage, issued, calls, printed, delivered, ended⟩
  cases serverfd with
  | some serverfd => cases orderly.listens.trans outside
  | none =>
      have numbered := orderly.numbered
      cases stage with
      | receiving clientfd => cases outside
      | sending clientfd left => cases outside
      | killed clientfd => cases outside
      | _ => exact ⟨numbered, rfl, orderly.delivers.idle rfl rfl (Nat.le_refl _) rfl⟩

theorem Orderly.step {server : DemoServer} (orderly : server.Orderly) (event : DemoEvent) :
    (server.step event).Orderly := by
  unfold DemoServer.step
  split
  case h_1 stands => exact orderly.start (by rw [stands]; rfl) _
  case h_2 stands => exact orderly.start (by rw [stands]; rfl) _
  case h_3 stands => exact orderly.accept stands _
  case h_4 stands => exact orderly.recv stands _
  case h_5 stands => exact orderly.send stands _
  case h_6 stands => exact orderly.destroy (by rw [stands]; rfl)
  case h_7 stands => exact orderly.destroy (by rw [stands]; rfl)
  case h_8 => exact orderly

theorem orderly_after (port : Int32) (events : List DemoEvent) : (after port events).Orderly :=
  invariant_of_step Orderly (fun _ event orderly => orderly.step event) (orderly_construct port) events

/-! ## Any run -/

/-- The descriptors are used and closed while they are open; what is open is in
a variable of the program; every other one has been closed once; and outside
`run` none is left. -/
structure KeepsDescriptors (server : DemoServer) : Prop where
  allowed : Leaves server.calls server.held
  whileOpen : forall earlier call later descriptor, server.calls = earlier ++ call :: later ->
    call = .uses descriptor ∨ call = .closes descriptor -> .closes descriptor ∉ earlier
  few : server.held.length ≤ 2
  given : forall descriptor, descriptor < server.issued ->
    descriptor ∈ server.held ∧ server.calls.count (.closes descriptor) = 0 ∨
      descriptor ∉ server.held ∧ server.calls.count (.closes descriptor) = 1
  outside : server.stage.serving = false -> server.held = []

theorem length_toList_le {A : Type} (value : Option A) : value.toList.length ≤ 1 := by
  cases value with
  | none => exact Nat.zero_le 1
  | some _ => exact le_refl 1

/-- Whatever the system calls come to, descriptors are never leaked and never
used or closed again. -/
theorem keepsDescriptors (port : Int32) (events : List DemoEvent) :
    (after port events).KeepsDescriptors := by
  have orderly := orderly_after port events
  refine ⟨orderly.numbered.leaves, ?_, ?_, fun _ given => orderly.numbered.open_or_closed given, ?_⟩
  · intro earlier call later descriptor split needs
    have numbered := orderly.numbered
    rw [split] at numbered
    exact numbered.not_closed needs
  · rw [held, List.length_append]
    exact Nat.add_le_add (length_toList_le _) (length_toList_le _)
  · intro outside
    have unopened : (after port events).serverfd = none := by
      rw [← Option.not_isSome_iff_eq_none, orderly.listens, outside]
      exact Bool.false_ne_true
    rw [held, unopened]
    cases stands : (after port events).stage with
    | receiving clientfd => rw [stands] at outside; cases outside
    | sending clientfd left => rw [stands] at outside; cases outside
    | killed clientfd => rw [stands] at outside; cases outside
    | _ => rfl

/-- Whatever part of its bytes has arrived, a client reads the page if it has
the whole response, and no message otherwise; it has been sent the whole
response if and only if it has been served. -/
structure WholePageOrNone (server : DemoServer) : Prop where
  reads : forall clientfd got, got <+: server.delivered clientfd -> http.read got =
    if got = response page then some (headLines page.length, page, []) else none
  served : forall clientfd,
    server.delivered clientfd = response page ↔ server.ended clientfd = some .served

theorem wholePageOrNone (port : Int32) (events : List DemoEvent) :
    (after port events).WholePageOrNone where
  reads clientfd _ arrived :=
    read_of_prefix (arrived.trans ((orderly_after port events).delivers.sent clientfd).1)
  served clientfd := ((orderly_after port events).delivers.sent clientfd).2

/-- However `send` cuts the response, it is complete as soon as enough has been
taken. -/
theorem served_of_takes (port : Int32) (events : List DemoEvent) {clientfd : ℕ} {left : List Byte}
    (stands : (after port events).stage = .sending clientfd left) (counts : List ℕ)
    (enough : left.length ≤ counts.sum) : Exists fun executed => executed <+: counts ∧
      (after port (events ++ executed.map fun count => .send (.takes count))).stage = .accepting ∧
      (after port (events ++ executed.map fun count => .send (.takes count))).ended clientfd =
        some .served := by
  induction counts generalizing events left with
  | nil =>
      rcases (orderly_after port events).delivers.sending clientfd left stands with ⟨_, missing, _⟩
      exact absurd (List.length_eq_zero_iff.mp (Nat.le_zero.mp enough)) missing
  | cons count counts inductionHypothesis =>
      have sends : after port (events ++ [.send (.takes count)]) =
          (after port events).send clientfd left (.takes count) := by
        rw [after, run_append]
        change (after port events).step (.send (.takes count)) = _
        simp only [step, stands]
      by_cases done : left.drop count = []
      · refine ⟨[count], ⟨counts, rfl⟩, ?_, ?_⟩
        · rw [List.map_singleton, sends, send]
          dsimp only
          rw [if_pos done]
          rfl
        · rw [List.map_singleton, sends, send]
          dsimp only
          rw [if_pos done]
          exact Function.update_self _ _ _
      · have next : (after port (events ++ [.send (.takes count)])).stage =
            .sending clientfd (left.drop count) := by
          rw [sends, send]
          dsimp only
          rw [if_neg done]
        have further : (left.drop count).length ≤ counts.sum := by
          rw [List.sum_cons] at enough
          rw [List.length_drop]
          omega
        rcases inductionHypothesis _ next further with ⟨executed, leads, accepting, served⟩
        rw [List.append_assoc] at accepting served
        exact ⟨count :: executed, List.cons_prefix_cons.mpr ⟨rfl, leads⟩, accepting, served⟩

/-- A client that is connected and has sent an empty request. -/
def emptyRequest : List DemoEvent :=
  [.run .listens, .accept true, .recv (some [])]

theorem served_of_takes_emptyRequest : Exists fun executed => executed <+: [200, 1000] ∧
    (after 8080 (emptyRequest ++ executed.map fun count => .send (.takes count))).stage = .accepting ∧
    (after 8080 (emptyRequest ++ executed.map fun count => .send (.takes count))).ended 1 =
      some .served :=
  served_of_takes 8080 emptyRequest rfl [200, 1000] (by decide +kernel)

/-! ## The main program -/

/-- `std::stoi`, which throws without a digit and on a number out of range. -/
def stoi (text : List Byte) : Option Int32 :=
  if (splitSign (text.dropWhile isSpace)).2.takeWhile isDigit = [] then none
  else if FitsInt (leadingInteger text) then some (Int32.ofInt (leadingInteger text))
  else none

/-- `main` up to the call of `run`, or what it prints before it returns 1. -/
def main (argv : List (List Byte)) : Except (List Byte) DemoServer :=
  match argv[1]? with
  | none => .ok (construct 8080)
  | some text =>
      match stoi text with
      | none => .error (ascii "Invalid port number: " ++ text ++ ascii "\n")
      | some port => .ok (construct port)

/-- The port that `init` binds is the number modulo 65536. -/
theorem htons_of_main {argv : List (List Byte)} {text : List Byte} {server : DemoServer}
    (given : argv[1]? = some text) (constructed : main argv = .ok server) :
    ((htons server.portm).toNat : ℤ) = leadingInteger text % 65536 := by
  rw [main, given] at constructed
  dsimp only at constructed
  cases read : stoi text with
  | none =>
      rw [read] at constructed
      cases constructed
  | some port =>
      rw [read] at constructed
      cases constructed
      rw [stoi] at read
      split_ifs at read with digits fits
      cases read
      change ((htons (Int32.ofInt (leadingInteger text))).toNat : ℤ) = _
      rw [htons, (toInt_ofInt_eq_iff _).mpr fits, UInt16.ofInt, UInt16.toNat_ofNat']
      omega

end DemoServer

end CoreBank
