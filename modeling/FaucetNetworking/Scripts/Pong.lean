import FaucetNetworking.Scripts.Rules

/-!
The game of pong, in which the server tells its client what the room looks like and the
client tells the server where its mouse is. A message of the server begins with its length
and its type. The engine moves the ball, computes with numbers and calls the scripts; what
it passes to them is not restricted.
-/
namespace FaucetNetworking.Pong

open Ieee754 Program Script PrefixCode

/-! ### The game -/

def roomWidth : ℚ := 640

def roomHeight : ℚ := 480

def PADDLES_UPDATE : Value := .finite 1

def BALL_UPDATE : Value := .finite 2

def PLAYER_SCORE : Value := .finite 3

/-- The product with a power of two, which is not rounded. -/
def scaled (factor : ℚ) : Value → Value
  | .finite q => .finite (q * factor)
  | x => x

def negated : Value → Value
  | .finite q => .finite (-q)
  | .infinite negative => .infinite !negative
  | .nan => .nan

def less (a b : Value) : Bool := a.le b && !a.eq b

inductive Sprite where
  | paddleS
  | ballS

/-- What the scripts leave to the engine: sums, differences and products of numbers, and
the upper and the lower edge of an object with a sprite at a vertical position. -/
structure Engine where
  add : Value → Value → Value
  sub : Value → Value → Value
  mul : Value → Value → Value
  bboxTop : Sprite → Value → Value
  bboxBottom : Sprite → Value → Value

structure Ball where
  x : Value
  y : Value
  hspeed : Value
  vspeed : Value
  deriving DecidableEq

structure ScorePanel where
  player1score : ℕ
  player2score : ℕ
  deriving DecidableEq

/-- What the scripts and the engine assign to the objects of the room. -/
structure Room where
  leftPaddleY : Value
  rightPaddleY : Value
  ball : Ball
  scorePanel : ScorePanel
  deriving DecidableEq

def clipPaddlePosition (engine : Engine) (y : Value) : Value :=
  if less (engine.bboxTop .paddleS y) (.finite 0) then
    engine.add y (negated (engine.bboxTop .paddleS y))
  else if less (.finite roomHeight) (engine.bboxBottom .paddleS y) then
    engine.sub y (engine.sub (engine.bboxBottom .paddleS y) (.finite roomHeight))
  else y

/-- What happens to the ball in a step: the engine moves it, it collides with a paddle, and
at the end of the step it bounces off an edge of the room. The engine passes its new
position, or its speed in the new direction. -/
inductive BallEvent where
  | motion (x y : Value)
  | collision (hspeed vspeed : Value)
  | endStep

def Ball.bounce (engine : Engine) (ball : Ball) : Ball :=
  if less (engine.bboxTop .ballS ball.y) (.finite 0) then
    { ball with
      vspeed := negated ball.vspeed
      y := engine.add ball.y
        (engine.mul (.finite 2) (negated (engine.bboxTop .ballS ball.y))) }
  else if less (.finite roomHeight) (engine.bboxBottom .ballS ball.y) then
    { ball with
      vspeed := negated ball.vspeed
      y := engine.sub ball.y (engine.mul (.finite 2)
        (engine.sub (engine.bboxBottom .ballS ball.y) (.finite roomHeight))) }
  else ball

def Ball.after (engine : Engine) (ball : Ball) : BallEvent → Ball
  | .motion x y => { ball with x := x, y := y }
  | .collision hspeed vspeed => { ball with hspeed := hspeed, vspeed := vspeed }
  | .endStep => ball.bounce engine

def Room.moved (engine : Engine) (room : Room) (event : BallEvent) : Room :=
  { room with ball := room.ball.after engine event }

def ScorePanel.score (panel : ScorePanel) (player : Value) : ScorePanel :=
  if player.eq (.finite 1) then { panel with player1score := panel.player1score + 1 }
  else { panel with player2score := panel.player2score + 1 }

/-- The ball starts again in the middle, with a random vertical speed. -/
def Room.score (room : Room) (player vspeed : Value) : Room :=
  { room with
    scorePanel := room.scorePanel.score player
    ball :=
      { x := .finite (roomWidth / 2)
        y := .finite (roomHeight / 2)
        hspeed := if player.eq (.finite 1) then .finite 5 else .finite (-5)
        vspeed := vspeed } }

def doPlayerScore (isServer : Bool) (room : Room) (player vspeed : Value) : Script Room := do
  if isServer then
    writeUbyte (.finite 2)
    writeUbyte PLAYER_SCORE
    writeUbyte player
  return room.score player vspeed

/-! ### The client -/

/-- The variables of the client, with the result of the check that precedes the loop. -/
structure Client where
  nextByteIsHeader : Bool
  expectedBytes : Value
  inLoop : Bool
  ended : Bool
  room : Room

/-- What the engine passes to the client: a step with the position of the mouse, and the
random speed that a score may need; and what happens to its ball. -/
inductive ClientInput where
  | create
  | beginStep (mouseY vspeed : Value)
  | ball (event : BallEvent)

def processMessage (room : Room) (messageType vspeed : Value) : Script Room := do
  if messageType.eq PADDLES_UPDATE then
    let leftPaddleY ← readUshort
    let rightPaddleY ← readUshort
    return { room with leftPaddleY := leftPaddleY, rightPaddleY := rightPaddleY }
  else if messageType.eq BALL_UPDATE then
    let x ← readUshort
    let y ← readUshort
    let hspeed ← readShort
    let vspeed ← readShort
    return { room with ball := ⟨x, y, scaled (1 / 256) hspeed, scaled (1 / 256) vspeed⟩ }
  else if messageType.eq PLAYER_SCORE then
    let player ← readUbyte
    doPlayerScore false room player vspeed
  else
    return room

/-- One turn of the loop, or the end of the step after the last turn. -/
def Client.loop (client : Client) (mouseY vspeed : Value) : Script Client := do
  if ← tcpReceive client.expectedBytes then
    if client.nextByteIsHeader then
      let expectedBytes ← readUbyte
      return { client with
        expectedBytes := expectedBytes, nextByteIsHeader := false, inLoop := true }
    else
      let messageType ← readUbyte
      let room ← processMessage client.room messageType vspeed
      return { client with
        room := room, nextByteIsHeader := true, expectedBytes := .finite 1, inLoop := true }
  else
    writeShort mouseY
    socketSend
    return { client with inLoop := false }

/-- Only the server decides when a player scores. -/
def Client.script (engine : Engine) (client : Client) : ClientInput → Script Client
  | .create => do
    socketSendbufferLimit (.finite 65536)
    return client
  | .beginStep mouseY vspeed => do
    if client.inLoop then
      client.loop mouseY vspeed
    else
      let failed ← socketHasError
      { client with ended := client.ended || failed }.loop mouseY vspeed
  | .ball event => return { client with room := client.room.moved engine event }

/-! ### The server -/

/-- The variables of the server that has accepted its opponent. -/
structure Server where
  inLoop : Bool
  ended : Bool
  room : Room

/-- What the engine passes to the server: a step with the position of the mouse, what
happens to the ball with the random speed that a score may need, and the end of a step. -/
inductive ServerInput where
  | accept
  | beginStep (mouseY : Value)
  | ball (event : BallEvent) (vspeed : Value)
  | endStep

def Server.loop (engine : Engine) (server : Server) : Script Server := do
  if ← tcpReceive (.finite 2) then
    let y ← readShort
    return { server with room.rightPaddleY := clipPaddlePosition engine y, inLoop := true }
  else
    return { server with inLoop := false }

/-- Which player has scored, if any. -/
def playerScored (x : Value) : Option Value :=
  if less x (.finite 0) then some (.finite 2)
  else if less (.finite roomWidth) x then some (.finite 1)
  else none

/-- The check is made at the end of a step. -/
def BallEvent.scored (event : BallEvent) (x : Value) : Option Value :=
  match event with
  | .endStep => playerScored x
  | .motion _ _ | .collision _ _ => none

def Server.sendState (room : Room) : Script Unit := do
  writeUbyte (.finite 5)
  writeUbyte PADDLES_UPDATE
  writeUshort room.leftPaddleY
  writeUshort room.rightPaddleY
  writeUbyte (.finite 9)
  writeUbyte BALL_UPDATE
  writeUshort room.ball.x
  writeUshort room.ball.y
  writeShort (scaled 256 room.ball.hspeed)
  writeShort (scaled 256 room.ball.vspeed)
  socketSend

def Server.script (engine : Engine) (server : Server) : ServerInput → Script Server
  | .accept => do
    socketSendbufferLimit (.finite 65536)
    return server
  | .beginStep mouseY => do
    if server.inLoop then
      server.loop engine
    else
      let failed ← socketHasError
      { server with
        ended := server.ended || failed
        room.leftPaddleY := clipPaddlePosition engine mouseY }.loop engine
  | .ball event vspeed =>
    let room := server.room.moved engine event
    match event.scored room.ball.x with
    | none => return { server with room := room }
    | some player => do
      let room ← doPlayerScore true room player vspeed
      return { server with room := room }
  | .endStep => do
    Server.sendState server.room
    return server

def sides (engine : Engine) : Side → Party
  | .left => ⟨Server, ServerInput, Server.script engine⟩
  | .right => ⟨Client, ClientInput, Client.script engine⟩

/-! ### The messages -/

inductive Update where
  | paddles (leftY rightY : IntType.uint16.Element)
  | ball (x y : IntType.uint16.Element) (hspeed vspeed : IntType.int16.Element)
  | score (player : IntType.uint8.Element)

def Update.messageType : Update → UInt8
  | .paddles _ _ => 1
  | .ball _ _ _ _ => 2
  | .score _ => 3

def Update.content : Update → List UInt8
  | .paddles leftY rightY => IntType.uint16.message leftY ++ IntType.uint16.message rightY
  | .ball x y hspeed vspeed =>
    IntType.uint16.message x ++ IntType.uint16.message y ++
      IntType.int16.message hspeed ++ IntType.int16.message vspeed
  | .score player => IntType.uint8.message player

def Update.length : Update → UInt8
  | .paddles _ _ => 5
  | .ball _ _ _ _ => 9
  | .score _ => 2

/-- The message for an update, which begins with its length. -/
def Update.frame (u : Update) : Frame UInt8.toNat where
  header := u.length
  body := u.messageType :: u.content
  length_body := by
    cases u <;> simp only [length, content, List.length_cons, List.length_append,
      IntType.length_message] <;> rfl

/-- The stream of messages. -/
def code : PrefixCode UInt8 (Frame UInt8.toNat) := framed UInt8.toNat

def stream (updates : List Update) : List UInt8 := code.encodeAll (updates.map Update.frame)

/-- What a script of the server sets out to send when it finds the room like this. -/
def ServerInput.updates (engine : Engine) (room : Room) : ServerInput → List Update
  | .endStep =>
    [.paddles (IntType.uint16.stored room.leftPaddleY) (IntType.uint16.stored room.rightPaddleY),
      .ball (IntType.uint16.stored room.ball.x) (IntType.uint16.stored room.ball.y)
        (IntType.int16.stored (scaled 256 room.ball.hspeed))
        (IntType.int16.stored (scaled 256 room.ball.vspeed))]
  | .ball event _ => (event.scored (room.moved engine event).ball.x).toList.map fun player =>
      .score (IntType.uint8.stored player)
  | .accept | .beginStep _ => []

/-- The room after an event of the ball, at which a player may score. -/
def Room.played (engine : Engine) (room : Room) (event : BallEvent) (vspeed : Value) : Room :=
  (event.scored (room.moved engine event).ball.x).elim (room.moved engine event) fun player =>
    (room.moved engine event).score player vspeed

/-- What a script of the server does to the room. In a turn of the loop, the right paddle is
moved to a position that has been received. -/
def ServerInput.Changes (engine : Engine) (room room' : Room) : ServerInput → Prop
  | .accept | .endStep => room' = room
  | .beginStep mouseY => ∃ left right, room' = { room with
        leftPaddleY := left, rightPaddleY := right } ∧
      (left = room.leftPaddleY ∨ left = clipPaddlePosition engine mouseY) ∧
      (right = room.rightPaddleY ∨
        ∃ y : IntType.int16.Element, right = clipPaddlePosition engine (.finite y.val))
  | .ball event vspeed => room' = room.played engine event vspeed

/-- The updates that the scripts of the server send for some inputs, and the room then. -/
inductive Plays (engine : Engine) (start : Room) :
    List ServerInput → List Update → Room → Prop where
  | start : Plays engine start [] [] start
  | next {inputs : List ServerInput} {updates : List Update} {room room' : Room}
      (input : ServerInput) : Plays engine start inputs updates room →
      input.Changes engine room room' →
      Plays engine start (inputs ++ [input]) (updates ++ input.updates engine room) room'

/-- The positions of the mouse, one after the other. -/
def positionCode : PrefixCode UInt8 IntType.int16.Element :=
  ofLength IntType.int16.message 2 (by decide) IntType.int16.length_message
    IntType.int16.message_injective

def ClientInput.positions : ClientInput → List IntType.int16.Element
  | .beginStep mouseY _ => [IntType.int16.stored mouseY]
  | .create | .ball _ => []

/-! ### What the client shows -/

/-- What an update does to the room of the client. -/
def Update.Applied : Update → Room → Room → Prop
  | .paddles leftY rightY, room, room' => room' = { room with
      leftPaddleY := .finite leftY.val, rightPaddleY := .finite rightY.val }
  | .ball x y hspeed vspeed, room, room' => room' = { room with
      ball := ⟨.finite x.val, .finite y.val, .finite (hspeed.val / 256),
        .finite (vspeed.val / 256)⟩ }
  | .score player, room, room' => ∃ vspeed, room' = room.score (.finite player.val) vspeed

/-- The room after some updates, each of which was applied once and in this order. Between
them the ball goes on moving. -/
inductive Shows (engine : Engine) (start : Room) : List Update → Room → Prop where
  | start : Shows engine start [] start
  | next {updates : List Update} {room room' : Room} (u : Update) :
      Shows engine start updates room → u.Applied room room' →
      Shows engine start (updates ++ [u]) room'
  | moved {updates : List Update} {room : Room} (event : BallEvent) :
      Shows engine start updates room → Shows engine start updates (room.moved engine event)

/-- The score after some updates. -/
def ScorePanel.after (panel : ScorePanel) (updates : List Update) : ScorePanel :=
  updates.foldl (fun panel u => match u with
    | .score player => panel.score (.finite player.val)
    | _ => panel) panel

theorem ScorePanel.after_append (panel : ScorePanel) (updates more : List Update) :
    panel.after (updates ++ more) = (panel.after updates).after more := List.foldl_append

/-- The positions of both paddles after some updates. -/
def paddlesAfter (start : Value × Value) (updates : List Update) : Value × Value :=
  updates.foldl (fun paddles u => match u with
    | .paddles leftY rightY => (.finite leftY.val, .finite rightY.val)
    | _ => paddles) start

theorem paddlesAfter_append (start : Value × Value) (updates more : List Update) :
    paddlesAfter start (updates ++ more) = paddlesAfter (paddlesAfter start updates) more :=
  List.foldl_append

def Room.paddles (room : Room) : Value × Value := (room.leftPaddleY, room.rightPaddleY)

variable {engine : Engine}

theorem Shows.scorePanel {start room : Room} {updates : List Update}
    (h : Shows engine start updates room) :
    room.scorePanel = start.scorePanel.after updates := by
  induction h with
  | start => rfl
  | next u _ happlied ih =>
    rw [ScorePanel.after_append, ← ih]
    cases u with
    | paddles leftY rightY | ball x y hspeed vspeed =>
      rw [happlied]
      rfl
    | score player =>
      obtain ⟨vspeed, rfl⟩ := happlied
      rfl
  | moved event _ ih => exact ih

/-- Only the updates move the paddles. -/
theorem Shows.paddles {start room : Room} {updates : List Update}
    (h : Shows engine start updates room) :
    room.paddles = paddlesAfter start.paddles updates := by
  induction h with
  | start => rfl
  | next u _ happlied ih =>
    rw [paddlesAfter_append, ← ih]
    cases u with
    | paddles leftY rightY | ball x y hspeed vspeed =>
      rw [happlied]
      rfl
    | score player =>
      obtain ⟨vspeed, rfl⟩ := happlied
      rfl
  | moved event _ ih => exact ih

end FaucetNetworking.Pong
