import FaucetNetworking.Scripts.Pong

/-!
What the client of a game of pong shows of the server's room, and the server of the
client's mouse. The messages are taken out of the streams as they were put in, however the
network cuts these, so that each side applies what the other has sent once and in order.
-/
namespace FaucetNetworking.Pong

open Ieee754 Program Script PrefixCode

variable {engine : Engine}

/-! ### What the server keeps -/

def stateValues (room : Room) : List (IntType × Value) :=
  [(.uint8, .finite 5), (.uint8, PADDLES_UPDATE), (.uint16, room.leftPaddleY),
    (.uint16, room.rightPaddleY), (.uint8, .finite 9), (.uint8, BALL_UPDATE),
    (.uint16, room.ball.x), (.uint16, room.ball.y), (.int16, scaled 256 room.ball.hspeed),
    (.int16, scaled 256 room.ball.vspeed)]

def scoreValues (player : Value) : List (IntType × Value) :=
  [(.uint8, .finite 2), (.uint8, PLAYER_SCORE), (.uint8, player)]

theorem messages_stateValues (room : Room) :
    messages (stateValues room) = stream (ServerInput.endStep.updates engine room) := by
  unfold stateValues PADDLES_UPDATE BALL_UPDATE
  simp only [messages_cons, messages_nil, message_stored 5 Nat.cast_ofNat.symm,
    message_stored 1 Nat.cast_one.symm, message_stored 9 Nat.cast_ofNat.symm,
    message_stored 2 Nat.cast_ofNat.symm]
  simp only [ServerInput.updates, stream, code, List.map_cons, List.map_nil, encodeAll_cons,
    encodeAll_nil, framed, Update.frame, Update.length, Update.messageType, Update.content,
    List.append_nil, List.cons_append, List.nil_append, List.append_assoc]

theorem messages_scoreValues (player : Value) :
    messages (scoreValues player) = stream [.score (IntType.uint8.stored player)] := by
  unfold scoreValues PLAYER_SCORE
  simp only [messages_cons, messages_nil, message_stored 2 Nat.cast_ofNat.symm,
    message_stored 3 Nat.cast_ofNat.symm]
  simp only [stream, code, List.map_cons, List.map_nil, encodeAll_cons, encodeAll_nil, framed,
    Update.frame, Update.length, Update.messageType, Update.content, List.append_nil,
    List.cons_append, List.nil_append]

theorem script_endStep (server : Server) :
    server.script engine .endStep = writeAll (stateValues server.room)
      (.call .socketSend fun _ => .done server) := rfl

theorem script_score (server : Server) {event : BallEvent} {player : Value} (vspeed : Value)
    (hplayer : event.scored (server.room.moved engine event).ball.x = some player) :
    server.script engine (.ball event vspeed) = writeAll (scoreValues player)
      (.done { server with room := (server.room.moved engine event).score player vspeed }) := by
  unfold Server.script
  simp only [hplayer]
  rfl

theorem script_noScore (server : Server) {event : BallEvent} (vspeed : Value)
    (hplayer : event.scored (server.room.moved engine event).ball.x = none) :
    server.script engine (.ball event vspeed) =
      .done { server with room := server.room.moved engine event } := by
  unfold Server.script
  simp only [hplayer]
  rfl

theorem stream_append (updates more : List Update) :
    stream (updates ++ more) = stream updates ++ stream more := by
  unfold stream
  rw [List.map_append, encodeAll_append]

theorem scored_byte {event : BallEvent} {x player : Value}
    (hplayer : event.scored x = some player) : ∃ b : UInt8, player = .finite b.toNat := by
  cases event with
  | motion x y | collision hspeed vspeed => contradiction
  | endStep =>
    change playerScored x = some player at hplayer
    unfold playerScored at hplayer
    split at hplayer
    · exact ⟨2, (Option.some.inj hplayer).symm.trans (congrArg Value.finite Nat.cast_ofNat.symm)⟩
    · split at hplayer
      · exact ⟨1, (Option.some.inj hplayer).symm.trans (congrArg Value.finite Nat.cast_one.symm)⟩
      · contradiction

theorem after_stored_score (panel : ScorePanel) {event : BallEvent} {x player : Value}
    (hplayer : event.scored x = some player) :
    panel.after [.score (IntType.uint8.stored player)] = panel.score player := by
  obtain ⟨b, rfl⟩ := scored_byte hplayer
  have hstored := IntType.uint8.stored_intCast (ubyte b)
  have hcast : ((ubyte b).val : ℚ) = b.toNat := Int.cast_natCast _
  rw [hcast] at hstored
  change panel.score (.finite (IntType.uint8.stored (.finite b.toNat)).val) = _
  rw [hstored, hcast]

theorem updates_ball {room : Room} {event : BallEvent} (vspeed : Value) :
    (ServerInput.ball event vspeed).updates engine room =
      (event.scored (room.moved engine event).ball.x).toList.map fun player =>
        .score (IntType.uint8.stored player) := rfl

/-- The updates tell the score. -/
theorem Plays.scorePanel {start room : Room} {inputs : List ServerInput} {updates : List Update}
    (h : Plays engine start inputs updates room) :
    room.scorePanel = start.scorePanel.after updates := by
  induction h with
  | start => rfl
  | @next inputs updates room room' input _ hchanges ih =>
    rw [ScorePanel.after_append, ← ih]
    cases input with
    | accept | endStep =>
      obtain rfl : room' = room := hchanges
      rfl
    | beginStep mouseY =>
      obtain ⟨left, right, rfl, -, -⟩ := hchanges
      rfl
    | ball event vspeed =>
      obtain rfl : room' = room.played engine event vspeed := hchanges
      unfold Room.played
      rw [updates_ball]
      cases hplayer : event.scored (room.moved engine event).ball.x with
      | none => rfl
      | some player => exact (after_stored_score _ hplayer).symm

/-- The position of the right paddle is the one that was received last, clipped. -/
def lastPosition (engine : Engine) (start : Value) (positions : List IntType.int16.Element) :
    Value :=
  positions.foldl (fun _ y => clipPaddlePosition engine (.finite y.val)) start

/-- The server has sent all of its updates, and it has applied some positions. -/
structure ServerIdle (engine : Engine) (start : Server) (inputs : List ServerInput)
    (server : Server) (g : Exchange) : Prop where
  updates : ∃ updates, Plays engine start.room inputs updates server.room ∧
    g.written = stream updates
  positions : ∃ positions, g.received = positionCode.encodeAll positions ∧
    server.room.rightPaddleY = lastPosition engine start.room.rightPaddleY positions

def ServerDuring (engine : Engine) (start : Server) (inputs : List ServerInput) (g : Exchange) :
    Prop :=
  ∃ updates room, Plays engine start.room inputs updates room ∧ g.written <+: stream updates

variable {start server : Server} {inputs : List ServerInput} {input : ServerInput}
  {updates : List Update} {room : Room} {g : Exchange}

/-- Nothing is written by the script of an input without updates. -/
theorem serverDuring_of_written (h : Plays engine start.room inputs updates room)
    (hwritten : g.written = stream updates) {room' : Room}
    (hchanges : input.Changes engine room room') :
    ServerDuring engine start (inputs ++ [input]) g := by
  refine ⟨_, room', h.next input hchanges, ?_⟩
  rw [hwritten, stream_append]
  exact List.prefix_append _ _

theorem ServerIdle.of_same {server' : Server} {g' : Exchange}
    (h : Plays engine start.room inputs updates room) (hwritten : g'.written = stream updates)
    (hupdates : input.updates engine room = [])
    (hchanges : input.Changes engine room server'.room)
    (hpositions : ∃ positions, g'.received = positionCode.encodeAll positions ∧
      server'.room.rightPaddleY = lastPosition engine start.room.rightPaddleY positions) :
    ServerIdle engine start (inputs ++ [input]) server' g' := by
  refine ⟨⟨_, h.next input hchanges, ?_⟩, hpositions⟩
  rw [hupdates, List.append_nil, hwritten]

theorem loop_keeps {mouseY left : Value} (h : Plays engine start.room inputs updates room)
    (hwritten : g.written = stream updates)
    (hroom : server.room = { room with leftPaddleY := left })
    (hleft : left = room.leftPaddleY ∨ left = clipPaddlePosition engine mouseY)
    (hpositions : ∃ positions, g.received = positionCode.encodeAll positions ∧
      room.rightPaddleY = lastPosition engine start.room.rightPaddleY positions) :
    (server.loop engine).Keeps SocketCall.Effect
      (ServerDuring engine start (inputs ++ [.beginStep mouseY]))
      (ServerIdle engine start (inputs ++ [.beginStep mouseY])) g := by
  have hquiet : (ServerInput.beginStep mouseY).Changes engine room server.room :=
    ⟨left, room.rightPaddleY, hroom, hleft, Or.inl rfl⟩
  have hduring : ∀ g' : Exchange, g'.written = g.written →
      ServerDuring engine start (inputs ++ [.beginStep mouseY]) g' := fun g' hg' =>
    serverDuring_of_written h (hg'.trans hwritten) hquiet
  obtain ⟨positions, hreceived, hpaddle⟩ := hpositions
  have htwo : Value.finite 2 = .finite ((2 : UInt32).toNat : ℚ) :=
    congrArg Value.finite Nat.cast_ofNat.symm
  apply keeps_tcpReceive htwo (hduring g rfl)
  · intro bytes hlength
    refine ⟨hduring _ rfl, ?_⟩
    rintro y g' ⟨rfl, hvalue⟩
    obtain ⟨n, hn⟩ := IntType.int16.exists_message hlength
    obtain rfl := hvalue n (hn.trans (List.take_of_length_le (Nat.le_of_eq hlength)).symm)
    refine ⟨hduring _ rfl, ServerIdle.of_same h hwritten rfl ?_ ⟨positions ++ [n], ?_, ?_⟩⟩
    · exact ⟨left, _, congrArg (fun r : Room => { r with
        rightPaddleY := clipPaddlePosition engine (.finite n.val) }) hroom, hleft,
        Or.inr ⟨n, rfl⟩⟩
    · rw [encodeAll_append, ← hreceived, encodeAll_cons, encodeAll_nil, List.append_nil]
      exact congrArg (g.received ++ ·) hn.symm
    · unfold lastPosition
      rw [List.foldl_append]
      rfl
  · refine ⟨hduring _ rfl, ServerIdle.of_same h hwritten rfl hquiet ⟨positions, hreceived, ?_⟩⟩
    exact (congrArg Room.rightPaddleY hroom).trans hpaddle

/-- A script that writes the messages of its updates. -/
theorem writeAll_keeps {values : List (IntType × Value)} {rest : Script Server} {room' : Room}
    (h : Plays engine start.room inputs updates room) (hwritten : g.written = stream updates)
    (hchanges : input.Changes engine room room')
    (hvalues : messages values = stream (input.updates engine room))
    (hrest : rest.Keeps SocketCall.Effect (ServerDuring engine start (inputs ++ [input]))
      (ServerIdle engine start (inputs ++ [input]))
      { g with written := stream (updates ++ input.updates engine room) }) :
    (writeAll values rest).Keeps SocketCall.Effect
      (ServerDuring engine start (inputs ++ [input]))
      (ServerIdle engine start (inputs ++ [input])) g := by
  have hall : g.written ++ messages values = stream (updates ++ input.updates engine room) := by
    rw [hwritten, hvalues, stream_append]
  apply keeps_writeAll
  · rintro front ⟨rest, rfl⟩
    refine ⟨_, room', h.next input hchanges, ?_⟩
    rw [← hall]
    unfold messages
    rw [List.flatMap_append, ← List.append_assoc]
    exact List.prefix_append _ _
  · rw [hall]
    exact hrest

/-- An event of the ball, at which a player may score. -/
theorem serverBall_keeps {event : BallEvent}
    (h : Plays engine start.room inputs updates server.room) (hwritten : g.written = stream updates)
    (hpositions : ∃ positions, g.received = positionCode.encodeAll positions ∧
      server.room.rightPaddleY = lastPosition engine start.room.rightPaddleY positions)
    (vspeed : Value) : (server.script engine (.ball event vspeed)).Keeps SocketCall.Effect
      (ServerDuring engine start (inputs ++ [.ball event vspeed]))
      (ServerIdle engine start (inputs ++ [.ball event vspeed])) g := by
  cases hplayer : event.scored (server.room.moved engine event).ball.x with
  | none =>
    have hnone : (ServerInput.ball event vspeed).updates engine server.room = [] := by
      rw [updates_ball, hplayer]
      rfl
    have hmoved : (ServerInput.ball event vspeed).Changes engine server.room
        (server.room.moved engine event) := by
      change _ = server.room.played engine event vspeed
      unfold Room.played
      rw [hplayer]
      rfl
    rw [script_noScore server vspeed hplayer]
    exact ⟨serverDuring_of_written h hwritten hmoved,
      ServerIdle.of_same h hwritten hnone hmoved hpositions⟩
  | some player =>
    have hone : (ServerInput.ball event vspeed).updates engine server.room =
        [.score (IntType.uint8.stored player)] := by
      rw [updates_ball, hplayer]
      rfl
    have hscored : (ServerInput.ball event vspeed).Changes engine server.room
        ((server.room.moved engine event).score player vspeed) := by
      change _ = server.room.played engine event vspeed
      unfold Room.played
      rw [hplayer]
      rfl
    rw [script_score server vspeed hplayer]
    apply writeAll_keeps h hwritten hscored
      ((messages_scoreValues player).trans (congrArg stream hone.symm))
    have hnext := h.next _ hscored
    exact ⟨⟨_, _, hnext, List.prefix_refl _⟩, ⟨_, hnext, rfl⟩, hpositions⟩

theorem server_keeps (h : ServerIdle engine start inputs server g) :
    (server.script engine input).Keeps SocketCall.Effect
      (ServerDuring engine start (inputs ++ [input]))
      (ServerIdle engine start (inputs ++ [input])) g := by
  obtain ⟨⟨updates, hplays, hwritten⟩, hpositions⟩ := h
  cases input with
  | accept =>
    have hsame : ServerInput.accept.Changes engine server.room server.room := rfl
    refine ⟨serverDuring_of_written hplays hwritten hsame, ?_⟩
    rintro ⟨⟩ g' rfl
    exact ⟨serverDuring_of_written hplays hwritten hsame,
      ServerIdle.of_same hplays hwritten rfl hsame hpositions⟩
  | beginStep mouseY =>
    unfold Server.script
    simp only
    split
    · exact loop_keeps hplays hwritten rfl (Or.inl rfl) hpositions
    · have hsame : (ServerInput.beginStep mouseY).Changes engine server.room server.room :=
        ⟨_, _, rfl, Or.inl rfl, Or.inl rfl⟩
      refine ⟨serverDuring_of_written hplays hwritten hsame, ?_⟩
      rintro failed g' ⟨rfl, -⟩
      exact loop_keeps hplays hwritten rfl (Or.inr rfl) hpositions
  | ball event vspeed => exact serverBall_keeps hplays hwritten hpositions vspeed
  | endStep =>
    have hsame : ServerInput.endStep.Changes engine server.room server.room := rfl
    have hnext := hplays.next _ hsame
    rw [script_endStep]
    apply writeAll_keeps hplays hwritten hsame (messages_stateValues server.room)
    refine ⟨⟨_, _, hnext, List.prefix_refl _⟩, ?_⟩
    rintro ⟨⟩ g' rfl
    exact ⟨⟨_, _, hnext, List.prefix_refl _⟩, ⟨_, hnext, rfl⟩, hpositions⟩

def serverContract (engine : Engine) (start : Server) : (sides engine .left).Contract where
  idle := ServerIdle engine start
  during := ServerDuring engine start
  keeps := fun _ _ _ _ h => server_keeps h

/-! ### What the client keeps -/

def clientPositions (inputs : List ClientInput) : List IntType.int16.Element :=
  inputs.flatMap ClientInput.positions

/-- The client has sent some of the positions of its mouse. -/
def ClientDuring (inputs : List ClientInput) (g : Exchange) : Prop :=
  ∃ sent : List IntType.int16.Element, sent.Sublist (clientPositions inputs) ∧
    g.written = positionCode.encodeAll sent

/-- What the client has received of the next message, and waits for. -/
inductive Awaits (client : Client) : List UInt8 → Prop where
  | header : client.nextByteIsHeader = true → client.expectedBytes = .finite 1 → Awaits client []
  | body (length : UInt8) : client.nextByteIsHeader = false →
      client.expectedBytes = .finite length.toNat → Awaits client [length]

theorem Awaits.congr {client client' : Client} {rest : List UInt8} (h : Awaits client rest)
    (hheader : client'.nextByteIsHeader = client.nextByteIsHeader)
    (hexpected : client'.expectedBytes = client.expectedBytes) : Awaits client' rest := by
  cases h with
  | header hnext hone => exact .header (hheader.trans hnext) (hexpected.trans hone)
  | body length hnext hlength =>
    exact .body length (hheader.trans hnext) (hexpected.trans hlength)

/-- The client has received some messages and perhaps the length of the next one, and
shows what they say. -/
structure ClientIdle (engine : Engine) (start : Client) (inputs : List ClientInput)
    (client : Client) (g : Exchange) : Prop where
  sent : ClientDuring inputs g
  received : ∃ frames rest, g.received = code.encodeAll frames ++ rest ∧ Awaits client rest ∧
    ∀ updates, frames = updates.map Update.frame →
      Shows engine start.room updates client.room

theorem eq_type_iff {a b : UInt8} {q : ℚ} (hq : q = b.toNat) :
    (Value.finite a.toNat).eq (.finite q) = true ↔ a = b := by
  unfold Value.eq
  rw [beq_iff_eq, hq, Nat.cast_inj, UInt8.toNat_inj]

/-- What a message does to the room if it is one for an update. -/
def Processes (room : Room) (messageType : Value) (g : Exchange) (room' : Room)
    (g' : Exchange) : Prop :=
  g'.received = g.received ∧ g'.written = g.written ∧
    ∀ u : Update, messageType = .finite u.messageType.toNat → g.unread = u.content →
      u.Applied room room'

section Message

variable {I : Exchange → Prop} {g : Exchange} {room : Room} {messageType : Value}

theorem paddles_keeps (hI : ∀ g' : Exchange, g'.written = g.written → I g')
    (htype : messageType.eq PADDLES_UPDATE = true) :
    Keeps SocketCall.Effect I (Processes room messageType g) (do
      let leftPaddleY ← readUshort
      let rightPaddleY ← readUshort
      return { room with leftPaddleY := leftPaddleY, rightPaddleY := rightPaddleY }) g := by
  refine ⟨hI g rfl, ?_⟩
  rintro leftY g₁ ⟨rfl, hleft⟩
  refine ⟨hI _ rfl, ?_⟩
  rintro rightY g₂ ⟨rfl, hright⟩
  refine ⟨hI _ rfl, rfl, rfl, ?_⟩
  rintro u rfl hcontent
  rw [PADDLES_UPDATE, eq_type_iff (b := 1) Nat.cast_one.symm] at htype
  cases u with
  | ball x y hspeed vspeed | score player => simp [Update.messageType] at htype
  | paddles l r =>
    rw [hcontent] at hleft hright
    simp only [Update.content, IntType.uint16.drop_message] at hleft hright
    rw [hleft l (IntType.uint16.take_message l _).symm,
      hright r (IntType.uint16.take_only_message r).symm]
    rfl

theorem ball_keeps (hI : ∀ g' : Exchange, g'.written = g.written → I g')
    (htype : messageType.eq BALL_UPDATE = true) :
    Keeps SocketCall.Effect I (Processes room messageType g) (do
      let x ← readUshort
      let y ← readUshort
      let hspeed ← readShort
      let vspeed ← readShort
      return { room with
        ball := ⟨x, y, scaled (1 / 256) hspeed, scaled (1 / 256) vspeed⟩ }) g := by
  refine ⟨hI g rfl, ?_⟩
  rintro x g₁ ⟨rfl, hx⟩
  refine ⟨hI _ rfl, ?_⟩
  rintro y g₂ ⟨rfl, hy⟩
  refine ⟨hI _ rfl, ?_⟩
  rintro hspeed g₃ ⟨rfl, hh⟩
  refine ⟨hI _ rfl, ?_⟩
  rintro vspeed g₄ ⟨rfl, hv⟩
  refine ⟨hI _ rfl, rfl, rfl, ?_⟩
  rintro u rfl hcontent
  rw [BALL_UPDATE, eq_type_iff (b := 2) Nat.cast_ofNat.symm] at htype
  cases u with
  | paddles l r | score player => simp [Update.messageType] at htype
  | ball bx by' bh bv =>
    rw [hcontent] at hx hy hh hv
    simp only [Update.content, List.append_assoc, IntType.uint16.drop_message,
      IntType.int16.drop_message] at hx hy hh hv
    rw [hx bx (IntType.uint16.take_message bx _).symm,
      hy by' (IntType.uint16.take_message by' _).symm,
      hh bh (IntType.int16.take_message bh _).symm,
      hv bv (IntType.int16.take_only_message bv).symm]
    change _ = Room.mk _ _ _ _
    simp only [scaled, mul_one_div]

theorem score_keeps (hI : ∀ g' : Exchange, g'.written = g.written → I g')
    (htype : messageType.eq PLAYER_SCORE = true) (vspeed : Value) :
    Keeps SocketCall.Effect I (Processes room messageType g) (do
      let player ← readUbyte
      doPlayerScore false room player vspeed) g := by
  refine ⟨hI g rfl, ?_⟩
  rintro player g₁ ⟨rfl, hplayer⟩
  refine ⟨hI _ rfl, rfl, rfl, ?_⟩
  rintro u rfl hcontent
  rw [PLAYER_SCORE, eq_type_iff (b := 3) Nat.cast_ofNat.symm] at htype
  cases u with
  | paddles l r | ball x y hspeed vspeed => simp [Update.messageType] at htype
  | score p =>
    rw [hcontent] at hplayer
    rw [hplayer p (IntType.uint8.take_only_message p).symm]
    exact ⟨vspeed, rfl⟩

/-- The type of an update is one of those that the client knows. -/
theorem type_known (u : Update) : (Value.finite u.messageType.toNat).eq PADDLES_UPDATE = true ∨
    (Value.finite u.messageType.toNat).eq BALL_UPDATE = true ∨
    (Value.finite u.messageType.toNat).eq PLAYER_SCORE = true := by
  rw [PADDLES_UPDATE, eq_type_iff (b := 1) Nat.cast_one.symm, BALL_UPDATE,
    eq_type_iff (b := 2) Nat.cast_ofNat.symm, PLAYER_SCORE,
    eq_type_iff (b := 3) Nat.cast_ofNat.symm]
  cases u with
  | paddles l r => exact Or.inl rfl
  | ball x y hspeed vspeed => exact Or.inr (Or.inl rfl)
  | score player => exact Or.inr (Or.inr rfl)

theorem processMessage_keeps (hI : ∀ g' : Exchange, g'.written = g.written → I g')
    (vspeed : Value) : (processMessage room messageType vspeed).Keeps SocketCall.Effect I
      (Processes room messageType g) g := by
  unfold processMessage
  split
  case isTrue htype => exact paddles_keeps hI htype
  case isFalse hpaddles =>
    split
    case isTrue htype => exact ball_keeps hI htype
    case isFalse hball =>
      split
      case isTrue htype => exact score_keeps hI htype vspeed
      case isFalse hscore =>
        refine ⟨hI g rfl, rfl, rfl, ?_⟩
        rintro u rfl -
        rcases type_known u with htype | htype | htype
        · exact absurd htype hpaddles
        · exact absurd htype hball
        · exact absurd htype hscore

end Message

section Client

variable {start client : Client} {inputs : List ClientInput} {input : ClientInput} {g : Exchange}

theorem ClientDuring.next {g' : Exchange} (h : ClientDuring inputs g)
    (hwritten : g'.written = g.written) : ClientDuring (inputs ++ [input]) g' := by
  obtain ⟨sent, hsent, heq⟩ := h
  refine ⟨sent, ?_, hwritten.trans heq⟩
  unfold clientPositions
  rw [List.flatMap_append]
  exact hsent.trans (List.sublist_append_left _ _)

/-- The length of a message has been received. -/
theorem header_keeps (h : ClientIdle engine start inputs client g)
    (hheader : client.nextByteIsHeader = true) {bytes : List UInt8} (hlength : bytes.length = 1) :
    Keeps SocketCall.Effect (ClientDuring (inputs ++ [input]))
      (ClientIdle engine start (inputs ++ [input]))
      (.call (.read .uint8) fun expectedBytes => .done { client with
        expectedBytes := expectedBytes, nextByteIsHeader := false, inLoop := true })
      { g with received := g.received ++ bytes, unread := bytes } := by
  obtain ⟨frames, rest, hreceived, hawaits, hshows⟩ := h.received
  have hrest : rest = [] := by
    cases hawaits with
    | header _ _ => rfl
    | body length hbody _ =>
      rw [hheader] at hbody
      contradiction
  obtain ⟨b, rfl⟩ := List.length_eq_one_iff.mp hlength
  refine ⟨h.sent.next rfl, ?_⟩
  rintro expectedBytes g' ⟨rfl, hvalue⟩
  have hb := hvalue (ubyte b) (message_ubyte b)
  refine ⟨h.sent.next rfl, h.sent.next rfl, frames, [b], ?_, .body b rfl ?_, hshows⟩
  · change g.received ++ [b] = _
    rw [hreceived, hrest, List.append_nil]
  · rw [hb]
    exact congrArg Value.finite (Int.cast_natCast _)

/-- A message has been received. -/
theorem body_keeps (h : ClientIdle engine start inputs client g) {length : UInt8}
    {bytes : List UInt8} (hbody : client.nextByteIsHeader = false)
    (hexpected : client.expectedBytes = .finite length.toNat)
    (hlength : bytes.length = length.toNat) (vspeed : Value) :
    Keeps SocketCall.Effect (ClientDuring (inputs ++ [input]))
      (ClientIdle engine start (inputs ++ [input]))
      (.call (.read .uint8) fun messageType =>
        (processMessage client.room messageType vspeed).bind fun room => .done { client with
          room := room, nextByteIsHeader := true, expectedBytes := .finite 1, inLoop := true })
      { g with received := g.received ++ bytes, unread := bytes } := by
  obtain ⟨frames, rest, hreceived, hawaits, hshows⟩ := h.received
  have hrest : rest = [length] := by
    cases hawaits with
    | header hheader _ =>
      rw [hbody] at hheader
      contradiction
    | body l _ hl =>
      rw [hexpected] at hl
      have hnat := Nat.cast_injective (Value.finite.inj hl)
      rw [UInt8.toNat_inj.mp hnat]
  refine ⟨h.sent.next rfl, ?_⟩
  rintro messageType g' ⟨rfl, hvalue⟩
  have hprocess := @processMessage_keeps (ClientDuring (inputs ++ [input]))
    { g with received := g.received ++ bytes, unread := bytes.drop 1 } client.room messageType
    (fun g' hg' => h.sent.next hg') vspeed
  apply Keeps.bind
  apply hprocess.mono
  rintro room g' hduring ⟨hreceived', hwritten, happlied⟩
  refine ⟨hduring, hduring, frames ++ [⟨length, bytes, hlength⟩], [], ?_, .header rfl rfl, ?_⟩
  · rw [hreceived', encodeAll_append, encodeAll_cons, encodeAll_nil, List.append_nil]
    change g.received ++ bytes = _
    rw [hreceived, hrest, List.append_assoc]
    exact congrArg (code.encodeAll frames ++ ·) (List.append_nil (length :: bytes)).symm
  · intro updates hupdates
    obtain ⟨us, vs, rfl, hus, hvs⟩ := List.append_eq_map_iff.mp hupdates
    obtain ⟨u, rfl, hu⟩ := List.map_eq_singleton_iff.mp hvs
    refine (hshows us hus.symm).next u (happlied u ?_ ?_)
    · have hcontent : bytes = u.messageType :: u.content := (congrArg Frame.body hu).symm
      have htype := hvalue (ubyte u.messageType) (by
        rw [message_ubyte, hcontent]
        rfl)
      exact htype.trans (congrArg Value.finite (Int.cast_natCast _))
    · have hcontent : bytes = u.messageType :: u.content := (congrArg Frame.body hu).symm
      change bytes.drop 1 = u.content
      rw [hcontent]
      rfl

/-- There is nothing to receive, and the position of the mouse is sent. -/
theorem position_keeps (h : ClientIdle engine start inputs client g) (mouseY vspeed : Value) :
    Keeps SocketCall.Effect (ClientDuring (inputs ++ [.beginStep mouseY vspeed]))
      (ClientIdle engine start (inputs ++ [.beginStep mouseY vspeed]))
      (.call (.write .int16 mouseY) fun _ => .call .socketSend fun _ =>
        .done { client with inLoop := false }) { g with unread := [] } := by
  have hsent : ClientDuring (inputs ++ [.beginStep mouseY vspeed]) { g with
      unread := []
      written := g.written ++ IntType.int16.message (IntType.int16.stored mouseY) } := by
    obtain ⟨sent, hsent, hwritten⟩ := h.sent
    refine ⟨sent ++ [IntType.int16.stored mouseY], ?_, ?_⟩
    · unfold clientPositions
      rw [List.flatMap_append, List.flatMap_singleton]
      exact hsent.append (List.Sublist.refl _)
    · rw [encodeAll_append, encodeAll_cons, encodeAll_nil, List.append_nil, ← hwritten]
      rfl
  refine ⟨h.sent.next rfl, ?_⟩
  rintro ⟨⟩ g' ⟨n, hn, rfl⟩
  obtain rfl := IntType.int16.stored_eq hn
  refine ⟨hsent, ?_⟩
  rintro ⟨⟩ g' rfl
  refine ⟨hsent, hsent, ?_⟩
  obtain ⟨frames, rest, hreceived, hawaits, hshows⟩ := h.received
  exact ⟨frames, rest, hreceived, hawaits.congr rfl rfl, hshows⟩

theorem clientLoop_keeps (h : ClientIdle engine start inputs client g) (mouseY vspeed : Value) :
    (client.loop mouseY vspeed).Keeps SocketCall.Effect
      (ClientDuring (inputs ++ [.beginStep mouseY vspeed]))
      (ClientIdle engine start (inputs ++ [.beginStep mouseY vspeed])) g := by
  have hnothing := position_keeps h mouseY vspeed
  obtain ⟨frames, rest, hreceived, hawaits, hshows⟩ := h.received
  unfold Client.loop
  cases hawaits with
  | header hheader hexpected =>
    have hone : client.expectedBytes = .finite ((1 : UInt32).toNat : ℚ) :=
      hexpected.trans (congrArg Value.finite Nat.cast_one.symm)
    refine keeps_tcpReceive hone (h.sent.next rfl) ?_ hnothing
    intro bytes hlength
    change Keeps _ _ _ (if client.nextByteIsHeader then _ else _) _
    rw [if_pos hheader]
    exact header_keeps h hheader hlength
  | body length hbody hexpected =>
    have hlt := length.toNat_lt
    have hnat : (UInt32.ofNat length.toNat).toNat = length.toNat := by
      rw [UInt32.toNat_ofNat']
      omega
    have hsize : client.expectedBytes = .finite ((UInt32.ofNat length.toNat).toNat : ℚ) := by
      rw [hnat, hexpected]
    refine keeps_tcpReceive hsize (h.sent.next rfl) ?_ hnothing
    intro bytes hlength
    change Keeps _ _ _ (if client.nextByteIsHeader then _ else _) _
    rw [if_neg (Bool.eq_false_iff.mp hbody)]
    exact body_keeps h hbody hexpected (hlength.trans hnat) vspeed

theorem client_keeps (h : ClientIdle engine start inputs client g) :
    (client.script engine input).Keeps SocketCall.Effect (ClientDuring (inputs ++ [input]))
      (ClientIdle engine start (inputs ++ [input])) g := by
  cases input with
  | create =>
    refine ⟨h.sent.next rfl, ?_⟩
    rintro ⟨⟩ g' rfl
    exact ⟨h.sent.next rfl, h.sent.next rfl, h.received⟩
  | ball event =>
    refine ⟨h.sent.next rfl, h.sent.next rfl, ?_⟩
    obtain ⟨frames, rest, hreceived, hawaits, hshows⟩ := h.received
    exact ⟨frames, rest, hreceived, hawaits.congr rfl rfl, fun updates hupdates =>
      (hshows updates hupdates).moved event⟩
  | beginStep mouseY vspeed =>
    unfold Client.script
    simp only
    split
    · exact clientLoop_keeps h mouseY vspeed
    · refine ⟨h.sent.next rfl, ?_⟩
      rintro failed g' ⟨rfl, -⟩
      have hchecked :
          ClientIdle engine start inputs { client with ended := client.ended || failed } g' := by
        obtain ⟨frames, rest, hreceived, hawaits, hshows⟩ := h.received
        exact ⟨h.sent, frames, rest, hreceived, hawaits.congr rfl rfl, hshows⟩
      exact clientLoop_keeps hchecked mouseY vspeed

end Client

def clientContract (engine : Engine) (start : Client) : (sides engine .right).Contract where
  idle := ClientIdle engine start
  during := ClientDuring
  keeps := fun _ _ _ _ h => client_keeps h

/-! ### The game over the link -/

def starts (engine : Engine) (server : Server) (client : Client) :
    (side : Side) → (sides engine side).State
  | .left => server
  | .right => client

/-- The variables as the Create event of the client sets them. -/
structure Client.Created (client : Client) : Prop where
  nextByteIsHeader : client.nextByteIsHeader = true
  expectedBytes : client.expectedBytes = .finite 1

def contracts (engine : Engine) (server : Server) (client : Client) :
    (side : Side) → (sides engine side).Contract
  | .left => serverContract engine server
  | .right => clientContract engine client

variable {c d : Conversation (sides engine)} {es : List (ConversationEvent (sides engine))}
  {server now : Server} {client shown : Client}

theorem keeps_of_run (hfresh : c.Fresh (starts engine server client)) (hclient : client.Created)
    (hrun : StateMachine.run Conversation.step c es = some d) :
    d.Sound ∧ d.Keeps .left (serverContract engine server) ∧
      d.Keeps .right (clientContract engine client) := by
  have hidle : ∀ side, (contracts engine server client side).idle []
      (starts engine server client side) .new := by
    rintro (_ | _)
    · exact ⟨⟨[], .start, rfl⟩, [], rfl, rfl⟩
    · refine ⟨⟨[], List.Sublist.refl _, rfl⟩, [], [], rfl,
        .header hclient.nextByteIsHeader hclient.expectedBytes, ?_⟩
      intro updates hupdates
      obtain rfl := List.map_eq_nil_iff.mp hupdates.symm
      exact .start
  have hduring : ∀ side, (contracts engine server client side).during [] .new := by
    rintro (_ | _)
    · exact ⟨[], _, .start, List.prefix_refl _⟩
    · exact ⟨[], List.Sublist.refl _, rfl⟩
  obtain ⟨hsound, hkeeps⟩ := Conversation.keeps_of_run (contracts engine server client) hfresh
    hidle hduring hrun
  exact ⟨hsound, hkeeps .left, hkeeps .right⟩

/-- The right paddle of the server is where one of the positions that the client has sent
puts it, and the positions before have been applied in their order. -/
theorem server_follows (hfresh : c.Fresh (starts engine server client)) (hclient : client.Created)
    (hrun : StateMachine.run Conversation.step c es = some d)
    (hnow : d.script .left = .done now) :
    ∃ sent applied, sent.Sublist (clientPositions (d.inputs .right)) ∧ applied <+: sent ∧
      now.room.rightPaddleY = lastPosition engine server.room.rightPaddleY applied ∧
      (d.exchange .right).written = positionCode.encodeAll sent ∧
      (d.exchange .left).received = positionCode.encodeAll applied := by
  obtain ⟨hsound, hkeeps, hclient⟩ := keeps_of_run hfresh hclient hrun
  obtain ⟨-, applied, hreceived, hpaddle⟩ : ServerIdle engine server (d.inputs .left) now
    (d.exchange .left) := hkeeps.idle hnow
  obtain ⟨sent, hsent, hwritten⟩ : ClientDuring (d.inputs .right) (d.exchange .right) :=
    hclient.during
  have hfront := hsound.received .left
  rw [show (d.exchange Side.left.other).written = positionCode.encodeAll sent from hwritten,
    hreceived, ← List.append_nil (positionCode.encodeAll applied)] at hfront
  exact ⟨sent, applied, hsent, prefix_of_encodeAll_append hfront, hpaddle, hwritten, hreceived⟩

/-! ### A short game -/

/-- Exact numbers, and the sprites of 20 times 100 and of 20 times 20 pixels. -/
def newEngine : Engine where
  add
    | .finite p, .finite q => .finite (p + q)
    | _, _ => .nan
  sub
    | .finite p, .finite q => .finite (p - q)
    | _, _ => .nan
  mul
    | .finite p, .finite q => .finite (p * q)
    | _, _ => .nan
  bboxTop
    | .paddleS, .finite y => .finite (y - 50)
    | .ballS, .finite y => .finite (y - 10)
    | _, y => y
  bboxBottom
    | .paddleS, .finite y => .finite (y + 49)
    | .ballS, .finite y => .finite (y + 9)
    | _, y => y

/-- The ball has just left the room, in the corner. -/
def newServer : Server :=
  ⟨false, false, ⟨.finite 100, .finite 300, ⟨.finite 650, .finite 5, .finite 5, .finite (-4)⟩,
    ⟨0, 0⟩⟩⟩

def newClient : Client :=
  ⟨true, .finite 1, false, false, ⟨.finite 240, .finite 240,
    ⟨.finite 320, .finite 240, .finite 5, .finite 0⟩, ⟨0, 0⟩⟩⟩

theorem created_newClient : newClient.Created := ⟨rfl, rfl⟩

def newGame : Conversation (sides newEngine) where
  link := TcpLink.connectedPair
  script := fun side => .done (starts newEngine newServer newClient side)
  inputs := fun _ => []
  exchange := fun _ => .new

theorem fresh_newGame : newGame.Fresh (starts newEngine newServer newClient) :=
  ⟨TcpLink.fresh_connectedPair, fun _ => rfl, fun _ => rfl, fun _ => rfl⟩

/-- Results of calls into Asio when some bytes are there. -/
def surroundings (available : ℕ) : Surroundings :=
  ⟨⟨.ok available, none⟩, .wouldBlock, fun n => ByteDigits.Image.encode n 0⟩

/-- The client after a turn of its loop in which there was nothing to receive. -/
def idleClient : Client := { newClient with inLoop := false }

/-- The position of a mouse above the room. -/
def positionBytes : List UInt8 := [255, 206]

theorem positionBytes_eq : messages [(.int16, .finite (-50))] = positionBytes := by decide +kernel

/-- The socket of the client with a read that waits for the next length. -/
def waiting : TcpSession := (TcpSocket.receive TcpSession.accepted 1 ⟨.ok 0, none⟩).2

theorem holds_waiting : waiting.Holds [⟨0, 1, 0⟩] [] :=
  ⟨⟨rfl, rfl, rfl, rfl⟩, rfl, rfl, rfl, rfl, SendBuffer.new_represents, rfl⟩

/-- What is left of the script of the client. -/
def sendPosition : Script Client :=
  writeAll [(.int16, .finite (-50))] (.call .socketSend fun _ => .done idleClient)

theorem runAlone_waiting : runAlone TcpSession.accepted .new
      (newClient.script newEngine (.beginStep (.finite (-50)) (.finite 1)))
      [surroundings 0, surroundings 0] = some (waiting, .new, sendPosition) := rfl

/-- The client finds that nothing is there. -/
theorem run_waiting : ∃ c, StateMachine.run Conversation.step newGame
      [.begin .right (.beginStep (.finite (-50)) (.finite 1)), .call .right (surroundings 0),
        .call .right (surroundings 0)] = some c ∧
    c.Holds .right [⟨0, 1, 0⟩] TcpSession.accepted [] ∧ c.script .right = sendPosition ∧
    c.script .left = .done newServer ∧ c.exchange .left = .new := by
  have hbegin := Conversation.step_begin (show newGame.script .right = .done newClient from rfl)
    (.beginStep (.finite (-50)) (.finite 1))
  have hcalls := @Conversation.run_of_runAlone _ { newGame with
    script := Function.update newGame.script .right
      (newClient.script newEngine (.beginStep (.finite (-50)) (.finite 1)))
    inputs := Function.update newGame.inputs .right
      (newGame.inputs .right ++ [.beginStep (.finite (-50)) (.finite 1)]) } .left _ _ _ _ _ _ _ _ _
    _ rfl rfl rfl runAlone_waiting
  exact ⟨_, (StateMachine.run_cons_eq_some_iff _ _ _ _ _).mpr ⟨_, hbegin, hcalls⟩,
    ⟨waiting, holds_waiting, @TcpLink.oneWay_other .right _ _⟩, rfl, rfl, rfl⟩

/-- The client sends the position of its mouse. -/
theorem run_client : ∃ es right c, StateMachine.run Conversation.step newGame es = some c ∧
    c.link = TcpLink.oneWay .right right
      (NetworkEvent.perform TcpSession.accepted (.arrive positionBytes)) positionBytes 2 ∧
    c.script .left = .done newServer ∧ c.exchange .left = .new := by
  obtain ⟨c₁, hrun₁, hheld, hscript, hserver, hexchange⟩ := run_waiting
  obtain ⟨c₂, hrun₂, hwritten, hsecond⟩ := hheld.run_writeAll (surroundings 0) hscript
    (by decide +kernel) (by decide +kernel)
  rw [List.nil_append, positionBytes_eq] at hwritten
  obtain ⟨es, right, c, hrun, hlink, hthird⟩ := hwritten.run_socketSend (surroundings 0)
    hsecond.script_self (by decide) rfl rfl
  have hall := hsecond.trans hthird
  exact ⟨_, right, c, StateMachine.run_append_eq_some hrun₁
    (StateMachine.run_append_eq_some hrun₂ hrun), hlink, hall.script_other.trans hserver,
    hall.other.trans hexchange⟩

theorem play_server : ∃ t g now, (sides newEngine .left).play
      (NetworkEvent.perform TcpSession.accepted (.arrive positionBytes)) .new newServer
      [(.beginStep (.finite 200), [surroundings 0, surroundings 2, surroundings 0])] =
        some (t, g, now) ∧
    (Server.room now).paddles = (.finite 200, .finite 50) ∧ g.received = positionBytes := by
  have hplay : ((sides newEngine .left).play
      (NetworkEvent.perform TcpSession.accepted (.arrive positionBytes)) .new newServer
      [(.beginStep (.finite 200), [surroundings 0, surroundings 2, surroundings 0])]).map
        (fun now => ((Server.room now.2.2).paddles, now.2.1.received)) =
          some ((.finite 200, .finite 50), positionBytes) := by
    decide +kernel
  obtain ⟨⟨t, g, now⟩, hrun, heq⟩ := Option.map_eq_some_iff.mp hplay
  obtain ⟨hpaddles, hreceived⟩ := Prod.mk.inj heq
  exact ⟨t, g, now, hrun, hpaddles, hreceived⟩

/-- The position is applied, and the paddle is moved back into the room. -/
theorem server_follows_newGame : ∃ (d : Conversation (sides newEngine)) (now : Server)
    (sent applied : List IntType.int16.Element),
    sent.Sublist (clientPositions (d.inputs .right)) ∧ applied <+: sent ∧
      now.room.rightPaddleY = lastPosition newEngine newServer.room.rightPaddleY applied ∧
      positionBytes = positionCode.encodeAll applied ∧
      now.room.paddles = (.finite 200, .finite 50) := by
  obtain ⟨es, right, c, hrun, hlink, hscript, hexchange⟩ := run_client
  obtain ⟨t, g, now, hplay, hpaddles, hreceived⟩ := play_server
  obtain ⟨fs, d, hrun', -, hdone, hother, -, -⟩ :=
    @Conversation.run_of_play _ c .right _ _ _ _ _ _ _ _ _ _ hlink hscript hexchange hplay
  obtain ⟨sent, applied, hsent, happlied, hpaddle, -, hall⟩ :=
    server_follows fresh_newGame created_newClient (StateMachine.run_append_eq_some hrun hrun')
      hdone
  refine ⟨d, now, sent, applied, hsent, happlied, hpaddle, ?_, hpaddles⟩
  rw [← hall, ← hreceived]
  exact (congrArg Exchange.received hother).symm

end FaucetNetworking.Pong
