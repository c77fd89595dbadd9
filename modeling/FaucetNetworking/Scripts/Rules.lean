import FaucetNetworking.Lib.PrefixCode
import FaucetNetworking.Scripts.Conversation

/-!
The functions of the library under their names in scripts, and how scripts that use them
are shown to keep something. Writing changes what has been written by the bytes of the
value; after a message has been received, reading takes its values from the front.
-/
namespace FaucetNetworking.Script

open Ieee754 Program

abbrev socketHasError : Script Bool := request SocketCall.socketHasError

abbrev socketSend : Script Unit := request SocketCall.socketSend

abbrev socketDestroy : Script Unit := request SocketCall.socketDestroy

abbrev socketSendbufferLimit (sizeLimit : Value) : Script Unit :=
  request (SocketCall.socketSendbufferLimit sizeLimit)

abbrev tcpReceive (size : Value) : Script Bool := request (SocketCall.tcpReceive size)

abbrev tcpReceiveAvailable : Script ℕ := request SocketCall.tcpReceiveAvailable

abbrev tcpEof : Script Bool := request SocketCall.tcpEof

abbrev writeUbyte (value : Value) : Script Unit := request (SocketCall.write .uint8 value)

abbrev writeUshort (value : Value) : Script Unit := request (SocketCall.write .uint16 value)

abbrev writeShort (value : Value) : Script Unit := request (SocketCall.write .int16 value)

abbrev writeString (str : List UInt8) : Script Unit := request (SocketCall.writeBytes str)

abbrev readUbyte : Script Value := request (SocketCall.read .uint8)

abbrev readUshort : Script Value := request (SocketCall.read .uint16)

abbrev readShort : Script Value := request (SocketCall.read .int16)

end FaucetNetworking.Script

namespace FaucetNetworking

open Ieee754 Program

namespace IntType

variable (t : IntType)

theorem lowest_mem : t.lowest ≤ t.lowest ∧ t.lowest ≤ t.max := ⟨le_refl _, t.lowest_le_max⟩

/-- The integer that is written for a number; for a NaN there is none. -/
def stored (value : Value) : t.Element := (t.converted value).getD ⟨t.lowest, t.lowest_mem⟩

theorem stored_eq {value : Value} {n : t.Element} (h : t.converted value = some n) :
    t.stored value = n := by
  unfold stored
  rw [h, Option.getD_some]

theorem stored_intCast (n : t.Element) : t.stored (.finite n.val) = n := by
  apply t.stored_eq
  unfold converted
  rw [Value.round_intCast, t.clippedCast_intCast]

end IntType

namespace IntType

variable (t : IntType)

theorem take_message (n : t.Element) (rest : List UInt8) :
    (t.message n ++ rest).take t.size = t.message n := List.take_left' (t.length_message n)

theorem drop_message (n : t.Element) (rest : List UInt8) :
    (t.message n ++ rest).drop t.size = rest := List.drop_left' (t.length_message n)

theorem take_only_message (n : t.Element) : (t.message n).take t.size = t.message n :=
  List.take_of_length_le (Nat.le_of_eq (t.length_message n))

end IntType

theorem ubyte_mem (b : UInt8) :
    IntType.uint8.lowest ≤ (b.toNat : ℤ) ∧ (b.toNat : ℤ) ≤ IntType.uint8.max := by
  have hlt := b.toNat_lt
  refine ⟨Int.natCast_nonneg _, ?_⟩
  simp only [IntType.max, IntType.signed, IntType.size, Bool.false_eq_true, if_false]
  omega

/-- A byte as the number that is written and read as it. -/
def ubyte (b : UInt8) : IntType.uint8.Element := ⟨b.toNat, ubyte_mem b⟩

theorem message_ubyte (b : UInt8) : IntType.uint8.message (ubyte b) = [b] := by
  have hlt := b.toNat_lt
  have hcast : (((b.toNat : ℤ) % 256 ^ IntType.uint8.size).toNat) = b.toNat := by
    change ((b.toNat : ℤ) % 256 ^ 1).toNat = b.toNat
    omega
  change (ByteDigits.digits 1 (((b.toNat : ℤ) % 256 ^ IntType.uint8.size).toNat)).reverse = [b]
  rw [hcast, ByteDigits.digits_succ, UInt8.ofNat_toNat]
  rfl

theorem message_stored {q : ℚ} (b : UInt8) (hq : q = b.toNat) :
    IntType.uint8.message (IntType.uint8.stored (.finite q)) = [b] := by
  have hstored := IntType.uint8.stored_intCast (ubyte b)
  rw [show ((ubyte b).val : ℚ) = q from hq ▸ Int.cast_natCast _] at hstored
  rw [hstored, message_ubyte]

/-- The bytes of some numbers that are written one after the other. -/
def messages (values : List (IntType × Value)) : List UInt8 :=
  values.flatMap fun v => v.1.message (v.1.stored v.2)

@[simp] theorem messages_nil : messages [] = [] := rfl

@[simp] theorem messages_cons (t : IntType) (value : Value) (values : List (IntType × Value)) :
    messages ((t, value) :: values) = t.message (t.stored value) ++ messages values := rfl

/-- Write some numbers, and go on. -/
def writeAll {α : Type} : List (IntType × Value) → Script α → Script α
  | [], rest => rest
  | (t, value) :: values, rest => .call (.write t value) fun _ => writeAll values rest

variable {α : Type} {I : Exchange → Prop} {post : α → Exchange → Prop} {g : Exchange}

/-- It is enough that the invariant holds after any of the numbers. -/
theorem keeps_writeAll {values : List (IntType × Value)} {rest : Script α}
    (hfront : ∀ front, front <+: values →
      I { g with written := g.written ++ messages front })
    (hrest : rest.Keeps SocketCall.Effect I post
      { g with written := g.written ++ messages values }) :
    (writeAll values rest).Keeps SocketCall.Effect I post g := by
  induction values generalizing g with
  | nil =>
    rw [messages_nil, List.append_nil] at hrest
    exact hrest
  | cons v values ih =>
    obtain ⟨t, value⟩ := v
    have hnone := hfront [] List.nil_prefix
    rw [messages_nil, List.append_nil] at hnone
    refine ⟨hnone, ?_⟩
    rintro ⟨⟩ g' ⟨n, hn, rfl⟩
    obtain rfl := t.stored_eq hn
    apply ih
    · intro front hle
      have hcons := hfront ((t, value) :: front) ((List.prefix_cons_inj _).mpr hle)
      rw [messages_cons, ← List.append_assoc] at hcons
      exact hcons
    · rw [messages_cons, ← List.append_assoc] at hrest
      exact hrest

/-- When tcp_receive says that a message is there, it is all that can be read. -/
theorem keeps_tcpReceive {size : Value} {n : UInt32} {next : Bool → Script α}
    (hsize : size = .finite n.toNat) (hI : I g)
    (hreceived : ∀ bytes, bytes.length = n.toNat → (next true).Keeps SocketCall.Effect I post
      { g with received := g.received ++ bytes, unread := bytes })
    (hnothing : (next false).Keeps SocketCall.Effect I post { g with unread := [] }) :
    (Program.call (.tcpReceive size) next).Keeps SocketCall.Effect I post g := by
  refine ⟨hI, ?_⟩
  intro received g' heffect
  change SocketCall.ReceiveEffect (numericCast size) g received g' at heffect
  rw [hsize, numericCast_natCast] at heffect
  obtain ⟨bytes, hlength, rfl⟩ := heffect
  cases received with
  | true => exact hreceived bytes hlength
  | false =>
    obtain rfl := List.eq_nil_of_length_eq_zero hlength
    rw [List.append_nil]
    exact hnothing

/-! ### Scripts that write and send -/

namespace Conversation

variable {P : Side → Party} {c d : Conversation P} {side : Side} {receives : List AsyncRead}
  {there there' : TcpSession} {data : List UInt8}

/-- The socket at this side has taken the data, and the sockets have sent nothing. -/
def Holds (c : Conversation P) (side : Side) (receives : List AsyncRead) (there : TcpSession)
    (data : List UInt8) : Prop :=
  ∃ here : TcpSession, here.Holds receives data ∧ c.link = TcpLink.oneWay side here there [] 0

/-- One side has gone on with its script and written some bytes, and the other side has no
part in this. -/
structure Continues (c : Conversation P) (side : Side) (bytes : List UInt8)
    (rest : Script (P side).State) (d : Conversation P) : Prop where
  script : d.script = Function.update c.script side rest
  written : (d.exchange side).written = (c.exchange side).written ++ bytes
  other : d.exchange side.other = c.exchange side.other

theorem Continues.trans {e : Conversation P} {bytes bytes' : List UInt8}
    {rest rest' : Script (P side).State} (h : c.Continues side bytes rest d)
    (h' : d.Continues side bytes' rest' e) : c.Continues side (bytes ++ bytes') rest' e := by
  refine ⟨?_, ?_, h'.other.trans h.other⟩
  · rw [h'.script, h.script, Function.update_idem]
  · rw [h'.written, h.written, List.append_assoc]

/-- After a call of a script at this side. -/
theorem continues_call {link : TcpLink} {call : Call} {rest : Script (P side).State} :
    c.Continues side (TcpSession.written (.call call)) rest { c with
      link := link
      script := Function.update c.script side rest
      exchange := Function.update c.exchange side ((c.exchange side).after
        (c.link.socket side) (.call call) (link.socket side)) } where
  script := rfl
  written := congrArg Exchange.written (Function.update_self side _ c.exchange)
  other := Function.update_of_ne side.other_ne _ _

theorem Continues.script_self {bytes : List UInt8} {rest : Script (P side).State}
    (h : c.Continues side bytes rest d) : d.script side = rest := by
  rw [h.script, Function.update_self]

theorem Continues.script_other {bytes : List UInt8} {rest : Script (P side).State}
    (h : c.Continues side bytes rest d) : d.script side.other = c.script side.other := by
  rw [h.script, Function.update_of_ne side.other_ne]

/-- The next script begins. -/
theorem Holds.step_begin (h : c.Holds side receives there data) {state : (P side).State}
    (hdone : c.script side = .done state) (input : (P side).Input) :
    ∃ d, step c (.begin side input) = some d ∧ d.Holds side receives there data ∧
      c.Continues side [] ((P side).script state input) d :=
  ⟨_, Conversation.step_begin hdone input, h, rfl, (List.append_nil _).symm, rfl⟩

/-- A call that writes some bytes. -/
theorem Holds.step_write (h : c.Holds side receives there data) {o : Surroundings}
    {q : SocketCall} {r : q.Result} {next : q.Result → Script (P side).State}
    {bytes : List UInt8} (hscript : c.script side = .call q next)
    (hperform : ∀ s, q.perform s o = some (some (.write bytes), r))
    (hsize : data.length + bytes.length ≤ TcpConnected.sizeMax) :
    ∃ d, step c (.call side o) = some d ∧ d.Holds side receives there (data ++ bytes) ∧
      c.Continues side bytes (next r) d := by
  obtain ⟨here, hholds, hlink⟩ := h
  obtain ⟨here', hwrite, hholds'⟩ := hholds.step_write hsize
  exact ⟨_, step_call hscript (hperform _) (hlink ▸ TcpLink.step_here_call hwrite),
    ⟨here', hholds', rfl⟩, @continues_call _ c side _ (.write bytes) (next r)⟩

/-- A script that writes some numbers, none of which is a NaN. -/
theorem Holds.run_writeAll (o : Surroundings) {values : List (IntType × Value)}
    {rest : Script (P side).State} (h : c.Holds side receives there data)
    (hscript : c.script side = writeAll values rest)
    (hvalues : ∀ v ∈ values, v.1.converted v.2 = some (v.1.stored v.2))
    (hsize : data.length + (messages values).length ≤ TcpConnected.sizeMax) :
    ∃ d, StateMachine.run step c (List.replicate values.length (.call side o)) = some d ∧
      d.Holds side receives there (data ++ messages values) ∧
      c.Continues side (messages values) rest d := by
  induction values generalizing c data with
  | nil =>
    have hrest : c.script side = rest := hscript
    refine ⟨c, rfl, (List.append_nil data).symm ▸ h, ?_, (List.append_nil _).symm, rfl⟩
    rw [← hrest, Function.update_eq_self]
  | cons v values ih =>
    obtain ⟨t, value⟩ := v
    have hvalue : t.converted value = some (t.stored value) := hvalues _ List.mem_cons_self
    rw [messages_cons, List.length_append] at hsize
    have hperform : ∀ s, (SocketCall.write t value).perform s o =
        some (some (.write (t.message (t.stored value))), ()) := fun s =>
      (congrArg (Option.map _) hvalue).trans rfl
    obtain ⟨e, hstep, hholds, hcontinues⟩ := h.step_write hscript hperform (by omega)
    have hnext : e.script side = writeAll values rest := by
      rw [hcontinues.script, Function.update_self]
    obtain ⟨d, hrun, hheld, hdone⟩ := ih hholds hnext
      (fun v hv => hvalues v (List.mem_cons_of_mem _ hv)) (by rw [List.length_append]; omega)
    refine ⟨d, (StateMachine.run_cons_eq_some_iff _ _ _ _ _).mpr ⟨e, hstep, hrun⟩, ?_,
      hcontinues.trans hdone⟩
    rw [messages_cons, ← List.append_assoc]
    exact hheld

/-- Between two calls of the scripts, the link goes on by itself. -/
theorem run_link {events : List LinkEvent} {link : TcpLink} (hauto : ∀ e ∈ events, e.Autonomous)
    (hrun : StateMachine.run TcpLink.step c.link events = some link) :
    StateMachine.run step c (events.map .link) = some { c with link := link } := by
  induction events generalizing c with
  | nil =>
    obtain rfl := Option.some.inj hrun
    rfl
  | cons e events ih =>
    obtain ⟨next, hstep, hrest⟩ := (StateMachine.run_cons_eq_some_iff _ _ _ _ _).mp hrun
    have hfirst : step c (.link e) = some { c with link := next } :=
      (if_pos (hauto e List.mem_cons_self)).trans (congrArg (Option.map _) hstep)
    exact (StateMachine.run_cons_eq_some_iff _ _ _ _ _).mpr
      ⟨_, hfirst, ih (fun e he => hauto e (List.mem_cons_of_mem _ he)) hrest⟩

/-- What a script has written is on the other side after it has called socket_send. -/
theorem Holds.run_socketSend (o : Surroundings) {next : Unit → Script (P side).State}
    (h : c.Holds side receives there data) (hscript : c.script side = .call .socketSend next)
    (hdata : data ≠ []) (hnone : there.history.arrived = [])
    (harrives : TcpSession.stepInRange there (.network (.arrive data)) = some there') :
    ∃ es here d, StateMachine.run step c es = some d ∧
      d.link = TcpLink.oneWay side here there' data data.length ∧
      c.Continues side [] (next ()) d := by
  obtain ⟨here, hholds, hlink⟩ := h
  obtain ⟨here', hsend, hcommitted⟩ := hholds.step_send
  obtain ⟨sb, -, -, hrun⟩ := TcpLink.run_delivers side hcommitted hdata hnone harrives
  have hauto : ∀ e ∈ [LinkEvent.socket side (TcpSession.sendDone 0),
      .transmit side data.length, .arrive side.other data.length], e.Autonomous := by
    simp [LinkEvent.Autonomous, TcpSession.sendDone]
  have hcall := step_call (o := o) hscript rfl (hlink ▸ TcpLink.step_here_call hsend)
  have hcontinues := @continues_call _ c side (TcpLink.oneWay side here' there [] 0) .send (next ())
  exact ⟨_, _, _, (StateMachine.run_cons_eq_some_iff _ _ _ _ _).mpr
    ⟨_, hcall, run_link hauto hrun⟩, rfl, hcontinues.script, hcontinues.written,
    hcontinues.other⟩

/-- What a script has written before it destroys its socket is on the other side then, and
the end of the stream after it. -/
theorem Holds.run_socketDestroy (o : Surroundings) {next : Unit → Script (P side).State}
    {there'' : TcpSession} (h : c.Holds side [] there data)
    (hscript : c.script side = .call .socketDestroy next) (hdata : data ≠ [])
    (hsmall : data.length < 2 ^ 31) (hnone : there.history.arrived = [])
    (harrives : TcpSession.stepInRange there (.network (.arrive data)) = some there')
    (hall : there'.history.arrived = data)
    (hcloses : TcpSession.stepInRange there' (.network .peerClose) = some there'') :
    ∃ es here d, StateMachine.run step c es = some d ∧ here.socket.state = .connected ∧
      d.link = TcpLink.oneWay side here there'' data 0 ∧ c.Continues side [] (next ()) d := by
  obtain ⟨here, hholds, hlink⟩ := h
  obtain ⟨here', hdestroy, hcommitted, hreleased⟩ := hholds.step_destroySocket
  obtain ⟨sb, hrep, hfirst, hrun⟩ :=
    TcpLink.run_delivers side hcommitted hdata hnone harrives
  have hresumed : (here'.resumed sb).Sends sb.committedAsConstBufferSequence :=
    ⟨hcommitted.sends.state, rfl, hcommitted.sends.abortRequested, rfl⟩
  obtain ⟨last, hlast, hstate, hclosed⟩ := hresumed.step_closes hrep hfirst hsmall
    (by simp [TcpSession.resumed, hreleased]) (by simp [TcpSession.resumed, hcommitted.pending])
  have hauto : ∀ e ∈ [LinkEvent.socket side (TcpSession.sendDone 0),
      .transmit side data.length, .arrive side.other data.length] ++
      [.socket side (TcpSession.sendDone data.length), .peerClose side.other],
      e.Autonomous := by
    simp [LinkEvent.Autonomous, TcpSession.sendDone]
  have hend : StateMachine.run TcpLink.step
      (TcpLink.oneWay side (here'.resumed sb) there' data data.length)
      [.socket side (TcpSession.sendDone data.length), .peerClose side.other] =
        some (TcpLink.oneWay side last there'' data 0) := by
    simp only [StateMachine.run_cons_eq_some_iff, StateMachine.run_nil]
    refine ⟨_, TcpLink.step_here_sendDone ?_ hlast, _,
      TcpLink.step_there_peerClose hclosed hstate ?_ hcloses, rfl⟩
    · change sb.firstElementIndex + data.length < 2 ^ 31
      rw [hfirst, Nat.zero_add]
      exact hsmall
    · rw [hall, List.drop_length]
  have hcall := step_call (o := o) hscript rfl (hlink ▸ TcpLink.step_here_call hdestroy)
  have hcontinues := @continues_call _ c side (TcpLink.oneWay side here' there [] 0)
    (.destroySocket false) (next ())
  exact ⟨_, last, _, (StateMachine.run_cons_eq_some_iff _ _ _ _ _).mpr
    ⟨_, hcall, run_link hauto (StateMachine.run_append_eq_some hrun hend)⟩, hstate, rfl,
    hcontinues.script, hcontinues.written, hcontinues.other⟩

end Conversation

/-! ### Scripts while nothing else happens -/

/-- The first calls of a script, as many as results of calls into Asio are given. -/
def runAlone {α : Type} (s : TcpSession) (g : Exchange) :
    Script α → List Surroundings → Option (TcpSession × Exchange × Script α)
  | p, [] => some (s, g, p)
  | .done _, _ :: _ => none
  | .call q next, o :: os =>
    match q.perform s o with
    | none => none
    | some (none, r) => runAlone s g (next r) os
    | some (some c, r) =>
      (TcpSession.step s (.call c)).bind fun t => runAlone t (g.after s (.call c) t) (next r) os

theorem runAlone_call {α : Type} {s t : TcpSession} {g : Exchange} {q : SocketCall}
    {r : q.Result} {next : q.Result → Script α} {c : Call} {o : Surroundings}
    (hperform : q.perform s o = some (some c, r)) (hstep : TcpSession.step s (.call c) = some t)
    (os : List Surroundings) :
    runAlone s g (.call q next) (o :: os) = runAlone t (g.after s (.call c) t) (next r) os := by
  rw [runAlone]
  simp only [hperform, hstep, Option.bind_some]

/-- Some scripts of a party, one after the other. -/
def Party.play (p : Party) (s : TcpSession) (g : Exchange) (state : p.State) :
    List (p.Input × List Surroundings) → Option (TcpSession × Exchange × p.State)
  | [] => some (s, g, state)
  | (input, os) :: rest =>
    (runAlone s g (p.script state input) os).bind fun
      | (t, g', .done state') => p.play t g' state' rest
      | (_, _, .call _ _) => none

namespace Conversation

variable {P : Side → Party} {c : Conversation P} {side : Side} {here s t : TcpSession}
  {sent : List UInt8} {sending : ℕ} {g g' : Exchange}

theorem run_of_runAlone {p p' : Script (P side.other).State} {os : List Surroundings}
    (hlink : c.link = TcpLink.oneWay side here s sent sending)
    (hscript : c.script side.other = p) (hexchange : c.exchange side.other = g)
    (h : runAlone s g p os = some (t, g', p')) :
    StateMachine.run step c (os.map (.call side.other)) = some { c with
      link := TcpLink.oneWay side here t sent sending
      script := Function.update c.script side.other p'
      exchange := Function.update c.exchange side.other g' } := by
  induction os generalizing c p s g with
  | nil =>
    obtain ⟨rfl, rfl, rfl⟩ : s = t ∧ g = g' ∧ p = p' := by
      unfold runAlone at h
      simpa using h
    rw [← hlink, ← hscript, ← hexchange, Function.update_eq_self, Function.update_eq_self]
    rfl
  | cons o os ih =>
    cases p with
    | done a =>
      unfold runAlone at h
      contradiction
    | call q next =>
      have hsocket : c.link.socket side.other = s := by rw [hlink, TcpLink.socket_oneWay_other]
      unfold runAlone at h
      cases hperform : q.perform s o with
      | none =>
        rw [hperform] at h
        contradiction
      | some result =>
        obtain ⟨call, r⟩ := result
        rw [hperform] at h
        cases call with
        | none =>
          have hstep := step_quiet hscript (hsocket.symm ▸ hperform)
          have hrest := @ih { c with script := Function.update c.script side.other (next r) } _ _ _
            hlink (Function.update_self _ _ _) hexchange h
          rw [List.map_cons, StateMachine.run_cons_eq_some_iff]
          refine ⟨_, hstep, hrest.trans ?_⟩
          simp only [Function.update_idem]
        | some call =>
          obtain ⟨u, hcall, hlater⟩ := Option.bind_eq_some_iff.mp h
          have hstep := step_call hscript (hsocket.symm ▸ hperform)
            (hlink ▸ TcpLink.step_there_call hcall)
          rw [hsocket, hexchange, TcpLink.socket_oneWay_other] at hstep
          have hrest := @ih { c with
            link := TcpLink.oneWay side here u sent sending
            script := Function.update c.script side.other (next r)
            exchange := Function.update c.exchange side.other (g.after s (.call call) u) } _ _ _
            rfl (Function.update_self _ _ _) (Function.update_self _ _ _) hlater
          rw [List.map_cons, StateMachine.run_cons_eq_some_iff]
          refine ⟨_, hstep, hrest.trans ?_⟩
          simp only [Function.update_idem]

/-- What the other side does alone is a run. -/
theorem run_of_play {state state' : (P side.other).State}
    {inputs : List ((P side.other).Input × List Surroundings)}
    (hlink : c.link = TcpLink.oneWay side here s sent sending)
    (hscript : c.script side.other = .done state) (hexchange : c.exchange side.other = g)
    (h : (P side.other).play s g state inputs = some (t, g', state')) :
    ∃ es d, StateMachine.run step c es = some d ∧
      d.link = TcpLink.oneWay side here t sent sending ∧ d.script side.other = .done state' ∧
      d.exchange side.other = g' ∧ d.script side = c.script side ∧
      d.exchange side = c.exchange side := by
  induction inputs generalizing c state s g with
  | nil =>
    obtain ⟨rfl, rfl, rfl⟩ : s = t ∧ g = g' ∧ state = state' := by
      unfold Party.play at h
      simpa using h
    exact ⟨[], c, rfl, hlink, hscript, hexchange, rfl, rfl⟩
  | cons i inputs ih =>
    obtain ⟨input, os⟩ := i
    unfold Party.play at h
    obtain ⟨⟨u, g₁, p⟩, halone, hrest⟩ := Option.bind_eq_some_iff.mp h
    cases p with
    | call q next => contradiction
    | done state₁ =>
      have hbegin := step_begin hscript input
      have hcalls := @run_of_runAlone _ { c with
        script := Function.update c.script side.other ((P side.other).script state input)
        inputs := Function.update c.inputs side.other (c.inputs side.other ++ [input]) }
        _ _ _ _ _ _ _ _ _ _ _ hlink (Function.update_self _ _ _) hexchange halone
      obtain ⟨e, hrun, hlink', hscript', hexchange', hhere, hsame⟩ :
          ∃ e, StateMachine.run step c (.begin side.other input ::
              os.map (.call side.other)) = some e ∧
            e.link = TcpLink.oneWay side here u sent sending ∧
            e.script side.other = .done state₁ ∧ e.exchange side.other = g₁ ∧
            e.script side = c.script side ∧ e.exchange side = c.exchange side :=
        ⟨_, (StateMachine.run_cons_eq_some_iff _ _ _ _ _).mpr ⟨_, hbegin, hcalls⟩, rfl,
          Function.update_self _ _ _, Function.update_self _ _ _,
          (Function.update_of_ne side.other_ne.symm _ _).trans
            (Function.update_of_ne side.other_ne.symm _ _),
          Function.update_of_ne side.other_ne.symm _ _⟩
      obtain ⟨es, d, hrun', hd, hdone, hother, hhere', hsame'⟩ :=
        ih hlink' hscript' hexchange' hrest
      exact ⟨_, d, StateMachine.run_append_eq_some hrun hrun', hd, hdone, hother,
        hhere'.trans hhere, hsame'.trans hsame⟩

end Conversation

end FaucetNetworking
