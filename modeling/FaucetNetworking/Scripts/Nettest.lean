import FaucetNetworking.Scripts.Rules

/-!
The client that downloads a page into a file. In each step it first looks whether the
stream has ended, and if not writes the bytes that are available to the file, one after
the other. The scripts of the server may be any.
-/
namespace FaucetNetworking.Nettest

open Ieee754 Program Script

/-- Whether the variable for the socket is noone, before and after a download; an error is
shown when the download ends. -/
inductive Phase where
  | waiting
  | downloading
  | finished (failed : Bool)
  deriving DecidableEq

structure Client where
  phase : Phase
  received : ℕ
  file : List Value

inductive ClientInput where
  | keySpacePressed
  | step
  deriving DecidableEq

def crlf : List UInt8 := [13, 10]

def request : List UInt8 :=
  (['G', 'E', 'T', ' ', '/', ' ', 'H', 'T', 'T', 'P', '/', '1', '.', '0'].map fun c =>
    UInt8.ofNat c.toNat) ++ crlf ++ crlf

/-- The loop that writes the bytes to the file. -/
def Client.writeBytes : ℕ → Client → Script Client
  | 0, client => return client
  | bytesLeft + 1, client => do
    let byte ← readUbyte
    { client with file := client.file ++ [byte], received := client.received + 1 }.writeBytes
      bytesLeft

def Client.script (client : Client) : ClientInput → Script Client
  | .keySpacePressed => do
    if client.phase = .waiting then
      writeString request
      socketSend
      return { client with phase := .downloading, file := [] }
    else
      return client
  | .step => do
    if client.phase = .downloading then
      if ← tcpEof then
        let failed ← socketHasError
        socketDestroy
        return { client with phase := .finished failed, received := 0 }
      else
        let bytesLeft ← tcpReceiveAvailable
        client.writeBytes bytesLeft
    else
      return client

/-- The client at the right side of a link. -/
def sides (server : Party) : Side → Party
  | .left => server
  | .right => ⟨Client, ClientInput, Client.script⟩

/-! ### What the client keeps -/

def byteValue (b : UInt8) : Value := .finite b.toNat

structure ClientIdle (client : Client) (g : Exchange) : Prop where
  file : client.file = g.received.map byteValue
  received : (∀ failed, client.phase ≠ .finished failed) → client.received = client.file.length
  requested : g.written = if client.phase = .waiting then [] else request
  waiting : client.phase = .waiting → g.received = []
  complete : client.phase = .finished false → g.ending = .reached

/-- Every program keeps what always holds. -/
theorem keeps_true {α : Type} (p : Script α) (g : Exchange) :
    p.Keeps SocketCall.Effect (fun _ => True) (fun _ _ => True) g := by
  induction p generalizing g with
  | done a => exact ⟨trivial, trivial⟩
  | call q next ih => exact ⟨trivial, fun r g' _ => ih r g'⟩

variable {client : Client} {g : Exchange}

/-- The loop writes what has been received to the file. -/
theorem writeBytes_keeps {bytes : List UInt8} (hunread : g.unread = bytes)
    (hphase : client.phase = .downloading) (hwritten : g.written = request)
    (hfile : client.file ++ bytes.map byteValue = g.received.map byteValue)
    (hreceived : client.received = client.file.length) :
    (client.writeBytes bytes.length).Keeps SocketCall.Effect (fun _ => True) ClientIdle g := by
  induction bytes generalizing client g with
  | nil =>
    rw [List.map_nil, List.append_nil] at hfile
    refine ⟨trivial, hfile, fun _ => hreceived, ?_, ?_, ?_⟩
    · rw [hphase, hwritten]
      rfl
    · intro hwaiting
      rw [hphase] at hwaiting
      contradiction
    · intro hfinished
      rw [hphase] at hfinished
      contradiction
  | cons b bytes ih =>
    refine ⟨trivial, ?_⟩
    rintro value g' ⟨rfl, hvalue⟩
    have hb : value = byteValue b := by
      rw [hvalue (ubyte b) (by rw [message_ubyte, hunread]; rfl)]
      exact congrArg Value.finite (Int.cast_natCast _)
    subst hb
    refine @ih { client with
      file := client.file ++ [byteValue b], received := client.received + 1 } _ ?_ ?_ ?_ ?_ ?_
    · change g.unread.drop 1 = bytes
      rw [hunread]
      rfl
    · exact hphase
    · exact hwritten
    · rw [List.append_assoc]
      exact hfile
    · rw [hreceived, List.length_append, List.length_singleton]

theorem step_keeps (h : ClientIdle client g) (hphase : client.phase = .downloading) :
    (client.script .step).Keeps SocketCall.Effect (fun _ => True) ClientIdle g := by
  have hwritten : g.written = request := by
    rw [h.requested, hphase]
    rfl
  unfold Client.script
  simp only
  rw [if_pos hphase]
  refine ⟨trivial, ?_⟩
  rintro eof g₁ ⟨ending, rfl, hending⟩
  cases eof with
  | true =>
    refine ⟨trivial, ?_⟩
    rintro failed g₂ ⟨rfl, hfailed⟩
    refine ⟨trivial, ?_⟩
    rintro ⟨⟩ g₃ rfl
    refine ⟨trivial, h.file, fun hopen => absurd rfl (hopen failed), hwritten, ?_, ?_⟩
    · intro hwaiting
      contradiction
    · intro hfinished
      have hclosed := hfailed (Phase.finished.inj hfinished)
      have hahead : ending ≠ .ahead := hending
      change ending ≠ .closed at hclosed
      change ending = .reached
      cases ending with
      | ahead => exact absurd rfl hahead
      | reached => rfl
      | closed => exact absurd rfl hclosed
  | false =>
    refine ⟨trivial, ?_⟩
    rintro bytesLeft g₂ ⟨bytes, rfl, rfl⟩
    have hfile : client.file ++ bytes.map byteValue = (g.received ++ bytes).map byteValue := by
      rw [h.file]
      exact List.map_append.symm
    have hreceived : client.received = client.file.length := by
      apply h.received
      intro failed hfinished
      rw [hphase] at hfinished
      contradiction
    have hloop := @writeBytes_keeps client ⟨g.written, g.received ++ bytes, bytes, ending⟩ bytes
      rfl hphase hwritten hfile hreceived
    exact hloop

theorem client_keeps {input : ClientInput} (h : ClientIdle client g) :
    (client.script input).Keeps SocketCall.Effect (fun _ => True) ClientIdle g := by
  cases input with
  | keySpacePressed =>
    unfold Client.script
    simp only
    split
    · rename_i hphase
      have hnothing := h.waiting hphase
      have hfile : client.file = [] := by
        rw [h.file, hnothing]
        rfl
      refine ⟨trivial, ?_⟩
      rintro ⟨⟩ g' rfl
      refine ⟨trivial, ?_⟩
      rintro ⟨⟩ g' rfl
      refine ⟨trivial, ?_, fun _ => ?_, ?_, ?_, ?_⟩
      · rw [hnothing]
        rfl
      · rw [← hfile]
        apply h.received
        intro failed hfinished
        rw [hphase] at hfinished
        contradiction
      · rw [h.requested, if_pos hphase]
        rfl
      · intro hwaiting
        contradiction
      · intro hfinished
        contradiction
    · exact ⟨trivial, h⟩
  | step =>
    by_cases hphase : client.phase = .downloading
    · exact step_keeps h hphase
    · unfold Client.script
      simp only
      rw [if_neg hphase]
      exact ⟨trivial, h⟩

def clientContract (server : Party) : (sides server .right).Contract where
  idle := fun _ => ClientIdle
  during := fun _ _ => True
  keeps := fun _ _ _ _ h => client_keeps h

/-- A server that may do anything with its socket. -/
def anyContract (server : Party) : (sides server .left).Contract where
  idle := fun _ _ _ => True
  during := fun _ _ => True
  keeps := fun _ state g input _ => keeps_true (server.script state input) g

/-! ### The download -/

def newClient : Client := ⟨.waiting, 0, []⟩

def starts (server : Party) (state : server.State) : (side : Side) → (sides server side).State
  | .left => state
  | .right => newClient

def contracts (server : Party) : (side : Side) → (sides server side).Contract
  | .left => anyContract server
  | .right => clientContract server

/-- The file of a client that talks to some server. -/
structure Downloads {server : Party} (d : Conversation (sides server)) (client : Client) :
    Prop where
  front : ∃ bytes, bytes <+: (d.exchange .left).written ∧ client.file = bytes.map byteValue
  received : (∀ failed, client.phase ≠ .finished failed) →
    client.received = client.file.length
  requested : client.phase ≠ .waiting → (d.exchange .right).written = request
  complete : client.phase = .finished false →
    (d.link.socket .left).socket.state = .connected →
    client.file = (d.exchange .left).written.map byteValue

/-- Whatever the scripts of the server do, the file holds the first bytes that they have
written; when the download has ended without an error, and the socket of the server had none
either, it holds all of them. -/
theorem file_is_page {server : Party} {state : server.State} {c d : Conversation (sides server)}
    {es : List (ConversationEvent (sides server))} {client : Client}
    (hfresh : c.Fresh (starts server state))
    (hrun : StateMachine.run Conversation.step c es = some d)
    (hdone : d.script .right = .done client) : Downloads d client := by
  have hidle : ∀ side, (contracts server side).idle [] (starts server state side) .new := by
    rintro (_ | _)
    · trivial
    · refine ⟨rfl, fun _ => rfl, rfl, fun _ => rfl, ?_⟩
      intro hfinished
      contradiction
  have hduring : ∀ side, (contracts server side).during [] .new := by
    rintro (_ | _) <;> trivial
  obtain ⟨hsound, hkeeps⟩ := Conversation.keeps_of_run (contracts server) hfresh hidle hduring hrun
  have hclient : ClientIdle client (d.exchange .right) := (hkeeps .right).idle hdone
  refine ⟨⟨_, hsound.received .right, hclient.file⟩, hclient.received, ?_, ?_⟩
  · intro hwaiting
    rw [hclient.requested, if_neg hwaiting]
  · intro hfinished hserver
    have hall := hsound.complete .right (hclient.complete hfinished) hserver
    rw [hclient.file, hall]
    rfl

/-! ### A short download -/

/-- A server that sends a page on each socket it accepts, and then destroys the socket. -/
def pageServer (page : List UInt8) : Party := ⟨Unit, Unit, fun _ _ => do
  writeString page
  socketDestroy⟩

def page : List UInt8 := [104, 105]

def newDownload : Conversation (sides (pageServer page)) where
  link := TcpLink.connectedPair
  script := fun side => .done (starts (pageServer page) () side)
  inputs := fun _ => []
  exchange := fun _ => .new

theorem fresh_newDownload : newDownload.Fresh (starts (pageServer page) ()) :=
  ⟨TcpLink.fresh_connectedPair, fun _ => rfl, fun _ => rfl, fun _ => rfl⟩

def surroundings (available : ℕ) (peek : PeekResult) : Surroundings :=
  ⟨⟨.ok available, none⟩, peek, fun n => ByteDigits.Image.encode n 0⟩

/-- The page and the end of the stream have arrived at the client. -/
def arrived : TcpSession :=
  NetworkEvent.perform (NetworkEvent.perform TcpSession.accepted (.arrive page)) .peerClose

/-- The server sends the page. -/
theorem run_pageServer : ∃ es left d, StateMachine.run Conversation.step newDownload es = some d ∧
    left.socket.state = .connected ∧ d.link = TcpLink.oneWay .left left arrived page 0 ∧
    d.script .right = .done newClient ∧ d.exchange .right = .new ∧
    (d.exchange .left).written = page := by
  have hnew : newDownload.Holds .left [] TcpSession.accepted [] :=
    ⟨_, TcpSession.holds_accepted, rfl⟩
  obtain ⟨b, hbegin, hbegun, hfirst⟩ := hnew.step_begin (show _ = Program.done () from rfl) ()
  obtain ⟨c, hwrite, hholds, hsecond⟩ := hbegun.step_write (o := surroundings 0 .wouldBlock)
    (q := .writeBytes page) (r := ()) hfirst.script_self (fun _ => rfl) (by decide)
  obtain ⟨es, left, d, hrun, hstate, hlink, hthird⟩ :=
    hholds.run_socketDestroy (surroundings 0 .wouldBlock) hsecond.script_self (by decide)
      (by decide) rfl rfl rfl rfl
  have hall := (hfirst.trans hsecond).trans hthird
  exact ⟨_, left, d, (StateMachine.run_cons_eq_some_iff _ _ _ _ _).mpr ⟨_, hbegin,
    (StateMachine.run_cons_eq_some_iff _ _ _ _ _).mpr ⟨_, hwrite, hrun⟩⟩, hstate, hlink,
    hall.script_other, hall.other, hall.written⟩

/-- The client sends its request, downloads the page, and finds the end of the stream. -/
theorem play_client : ∃ t g file,
    (sides (pageServer page) .right).play arrived .new newClient
      [(.keySpacePressed, [surroundings 0 .wouldBlock, surroundings 0 .wouldBlock]),
        (.step, [surroundings 0 .data, surroundings 2 .data, surroundings 0 .data,
          surroundings 0 .data]),
        (.step, [surroundings 0 .eof, surroundings 0 .eof, surroundings 0 .eof])] =
      some (t, g, (⟨.finished false, 0, file⟩ : Client)) := by
  obtain ⟨sb, hpush, -, -⟩ := TcpSession.exists_committed request
  have hsends : arrived.Sends [] := ⟨rfl, rfl, rfl, rfl⟩
  have hwrite := hsends.step_write rfl (TcpSession.fits_new (by decide)) hpush
  have hrequested : TcpSession.Sends { arrived with
      socket.sendbuffer := sb
      history.accepted := arrived.history.accepted ++ request } [] := ⟨rfl, rfl, rfl, rfl⟩
  have hsend := hrequested.step_send rfl
  have hpressed : runAlone arrived .new (newClient.script .keySpacePressed)
      [surroundings 0 .wouldBlock, surroundings 0 .wouldBlock] = _ :=
    (runAlone_call (q := .writeBytes request) (r := ()) rfl hwrite _).trans
      (runAlone_call (q := .socketSend) (r := ()) rfl hsend _)
  have hplay : ((sides (pageServer page) .right).play arrived .new newClient
      [(.keySpacePressed, [surroundings 0 .wouldBlock, surroundings 0 .wouldBlock]),
        (.step, [surroundings 0 .data, surroundings 2 .data, surroundings 0 .data,
          surroundings 0 .data]),
        (.step, [surroundings 0 .eof, surroundings 0 .eof, surroundings 0 .eof])]).map
      (fun now => (Client.phase now.2.2, Client.received now.2.2)) =
        some (.finished false, 0) :=
    (congrArg (fun r => Option.map _ (Option.bind r _)) hpressed).trans rfl
  obtain ⟨⟨t, g, client⟩, hclient, hphase⟩ := Option.map_eq_some_iff.mp hplay
  obtain ⟨phase, received, file⟩ := client
  obtain ⟨rfl, rfl⟩ := Prod.mk.inj hphase
  exact ⟨t, g, file, hclient⟩

/-- The file is the page. -/
theorem file_is_page_download : ∃ d : Conversation (sides (pageServer page)),
    (d.exchange .left).written = page ∧
      Downloads d ⟨.finished false, 0, page.map byteValue⟩ := by
  obtain ⟨es, left, c, hrun, hstate, hlink, hscript, hexchange, hwritten⟩ := run_pageServer
  obtain ⟨t, g, file, hplay⟩ := play_client
  obtain ⟨fs, d, hrun', hlink', hdone, -, -, hsame⟩ :=
    @Conversation.run_of_play _ c .left _ _ _ _ _ _ _ _ _ _ hlink hscript hexchange hplay
  have hdownloads := file_is_page fresh_newDownload (StateMachine.run_append_eq_some hrun hrun')
    hdone
  have hserver : (d.exchange .left).written = page := by rw [hsame, hwritten]
  have hconnected : (d.link.socket .left).socket.state = .connected := by
    rw [hlink', TcpLink.socket_oneWay]
    exact hstate
  obtain rfl : file = page.map byteValue := hserver ▸ hdownloads.complete rfl hconnected
  exact ⟨d, hserver, hdownloads⟩

end FaucetNetworking.Nettest
