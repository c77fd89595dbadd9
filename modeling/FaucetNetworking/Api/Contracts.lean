import FaucetNetworking.Api.Library

/-!
What the functions of the API do with the pointers that they get. Each of them calls members
only through pointers that it has found by its own handles, or through the pointer to the
default socket, and this one only to send what it has seen in a buffer.
-/
namespace FaucetNetworking

open Ieee754 Program

/-- Whatever the one pointer can be cast to, the other one can be, too. -/
def RequestedType.Refines (t u : RequestedType) : Prop :=
  ∀ c, t.includes c = true → u.includes c = true

theorem RequestedType.Refines.refl (t : RequestedType) : t.Refines t := fun _ h => h

theorem RequestedType.refines_of_buffer :
    (RequestedType.exactly .buffer).Refines .readWritable := by
  intro c
  cases c <;> decide

theorem RequestedType.refines_of_socket : RequestedType.socket.Refines .readWritable := by
  intro c
  cases c <;> decide

/-- What a running call has learned: the pointers with the handles that they were found by,
the pointer to the default socket, the contents of buffers, and what has been written to the
default socket and is not sent yet. Besides, whether it has had a receive buffer replaced. -/
structure Knowledge where
  found : List (Datum binary64 × RequestedType × ℕ)
  defaultSocket : Option ℕ
  seen : List (List UInt8)
  draft : Option (List UInt8)
  reseated : Bool

namespace Knowledge

def nothing : Knowledge := ⟨[], none, [], none, false⟩

/-- A pointer to the object can be used as one of the type. -/
def Points (g : Knowledge) (place : ℕ) (u : RequestedType) : Prop :=
  ∃ handle t, (handle, t, place) ∈ g.found ∧ t.Refines u

/-- What is sent from the default socket is the content of a buffer, written at once. -/
def Drafts (g : Knowledge) : Member → Prop
  | .write data => g.draft = none ∧ data ∈ g.seen
  | .sendTo _ _ | .broadcast _ => g.draft ≠ none
  | _ => False

def pointsToBuffer (g : Knowledge) (place : ℕ) : Bool :=
  g.found.any fun f => f.2.1 = .exactly .buffer && f.2.2 = place

/-- A pointer is to the object of its handle, and a handle is released through a pointer of
its own. Nothing is done any more when a receive buffer has been replaced. -/
def Allowed (handles : List (Datum binary64)) : Primitive → Knowledge → Prop
  | .find _ handle, _ => handle ∈ handles
  | .member place m, g => g.reseated = false ∧
    (g.Points place m.requestedType ∨ g.defaultSocket = some place ∧ g.Drafts m)
  | .accept place, g => g.reseated = false ∧ g.Points place (.exactly .combinedTcpAcceptor)
  | .destroySocket handle place _, g => g.reseated = false ∧
    ∃ c, (handle, .exactly c, place) ∈ g.found ∧
      (c = .tcpSocket ∨ c = .combinedTcpAcceptor ∨ c = .udpSocket)
  | .release handle, g =>
    ∃ c place, (handle, .exactly c, place) ∈ g.found ∧ (c = .buffer ∨ c = .ipLookup)
  | .getDefaultUdpSocket, g => g.draft = none
  | .undefined, _ | .allocate _, _ | .setLittleEndianDefault _, _ | .size, _ => True

def see (g : Knowledge) (place : ℕ) (data : List UInt8) : Knowledge :=
  if g.pointsToBuffer place then { g with seen := data :: g.seen } else g

def setDraft (g : Knowledge) (place : ℕ) (draft : Option (List UInt8)) : Knowledge :=
  if g.defaultSocket = some place then { g with draft } else g

def afterMember (place : ℕ) : (m : Member) → m.Result → Knowledge → Knowledge
  | .contents, b, g => g.see place b.data
  | .write data, _, g => g.setDraft place (some data)
  | .sendTo _ _, _, g | .broadcast _, _, g => g.setDraft place none
  | .receiveDatagram, _, g => { g with reseated := true }
  | _, _, g => g

/-- No pointer is used after a handle has been released. -/
def after : (q : Primitive) → q.Result → Knowledge → Knowledge
  | .find t handle, some place, g => { g with found := (handle, t, place) :: g.found }
  | .find _ _, none, g => g
  | .member place m, r, g => g.afterMember place m r
  | .destroySocket _ _ _, _, g | .release _, _, g => { g with found := [] }
  | .getDefaultUdpSocket, place, g => { g with defaultSocket := some place }
  | .undefined, _, g | .allocate _, _, g | .accept _, _, g | .setLittleEndianDefault _, _, g
  | .size, _, g => g

/-- The default socket is not used, and no receive buffer has been replaced. -/
structure Plain (g : Knowledge) : Prop where
  defaultSocket : g.defaultSocket = none
  draft : g.draft = none
  reseated : g.reseated = false

theorem plain_nothing : nothing.Plain := ⟨rfl, rfl, rfl⟩

variable {g : Knowledge} {place : ℕ}

@[simp] theorem found_see (g : Knowledge) (place : ℕ) (data : List UInt8) :
    (g.see place data).found = g.found := by
  unfold see
  split <;> rfl

@[simp] theorem defaultSocket_see (g : Knowledge) (place : ℕ) (data : List UInt8) :
    (g.see place data).defaultSocket = g.defaultSocket := by
  unfold see
  split <;> rfl

@[simp] theorem draft_see (g : Knowledge) (place : ℕ) (data : List UInt8) :
    (g.see place data).draft = g.draft := by
  unfold see
  split <;> rfl

@[simp] theorem reseated_see (g : Knowledge) (place : ℕ) (data : List UInt8) :
    (g.see place data).reseated = g.reseated := by
  unfold see
  split <;> rfl

@[simp] theorem found_setDraft (g : Knowledge) (place : ℕ) (draft : Option (List UInt8)) :
    (g.setDraft place draft).found = g.found := by
  unfold setDraft
  split <;> rfl

@[simp] theorem defaultSocket_setDraft (g : Knowledge) (place : ℕ)
    (draft : Option (List UInt8)) : (g.setDraft place draft).defaultSocket = g.defaultSocket := by
  unfold setDraft
  split <;> rfl

@[simp] theorem reseated_setDraft (g : Knowledge) (place : ℕ) (draft : Option (List UInt8)) :
    (g.setDraft place draft).reseated = g.reseated := by
  unfold setDraft
  split <;> rfl

/-- A member function finds no pointers. -/
theorem pointers_afterMember (g : Knowledge) (place : ℕ) (m : Member) (r : m.Result) :
    (g.afterMember place m r).found = g.found ∧
      (g.afterMember place m r).defaultSocket = g.defaultSocket := by
  cases m with
  | contents => exact ⟨found_see g place _, defaultSocket_see g place _⟩
  | write | sendTo | broadcast => exact ⟨found_setDraft g place _, defaultSocket_setDraft g place _⟩
  | _ => exact ⟨rfl, rfl⟩

theorem Plain.see (h : g.Plain) (place : ℕ) (data : List UInt8) : (g.see place data).Plain :=
  ⟨(defaultSocket_see g place data).trans h.defaultSocket, (draft_see g place data).trans h.draft,
    (reseated_see g place data).trans h.reseated⟩

theorem Plain.setDraft_eq (h : g.Plain) (place : ℕ) (draft : Option (List UInt8)) :
    g.setDraft place draft = g := by
  unfold Knowledge.setDraft
  rw [h.1, if_neg (Option.some_ne_none place).symm]

theorem Plain.afterMember (h : g.Plain) {m : Member} (hm : m.Reseats = false) (r : m.Result) :
    (g.afterMember place m r).Plain ∧ (g.afterMember place m r).found = g.found := by
  refine ⟨?_, (g.pointers_afterMember place m r).1⟩
  have hdraft := h.setDraft_eq place
  cases m with
  | contents => exact h.see place _
  | write | sendTo | broadcast =>
    change (g.setDraft place _).Plain
    rw [hdraft]
    exact h
  | receiveDatagram => contradiction
  | _ => exact h

/-- The last member function that is called may have a receive buffer replaced. -/
theorem Plain.draft_afterMember (h : g.Plain) (m : Member) (r : m.Result) :
    (g.afterMember place m r).draft = none := by
  cases hm : m.Reseats with
  | false => exact (h.afterMember hm r).1.draft
  | true =>
    cases m with
    | receiveDatagram => exact h.draft
    | _ => contradiction

theorem Points.of_found {handle : Datum binary64} {t : RequestedType}
    (h : (handle, t, place) ∈ g.found) {u : RequestedType} (hrefines : t.Refines u) :
    g.Points place u := ⟨handle, t, h, hrefines⟩

theorem Points.kept {u : RequestedType} {g' : Knowledge} (h : g.Points place u)
    (hkept : g.found ⊆ g'.found) : g'.Points place u := by
  obtain ⟨handle, t, hfound, ht⟩ := h
  exact ⟨handle, t, hkept hfound, ht⟩

theorem Points.congr {u : RequestedType} {g' : Knowledge} (h : g.Points place u)
    (hfound : g'.found = g.found) : g'.Points place u := by
  unfold Points
  rw [hfound]
  exact h

end Knowledge

/-- A program that uses its pointers as it may, and sends what it has written to the default
socket. -/
def Api.Obeys (handles : List (Datum binary64)) (p : ApiProgram Reply) (g : Knowledge) : Prop :=
  p.Meets (Knowledge.Allowed handles) Knowledge.after (fun _ g => g.draft = none) g

namespace Api

variable {handles : List (Datum binary64)} {g : Knowledge}

/-! ### Rules -/

section

variable {α : Type} {post : α → Knowledge → Prop}

theorem meets_undefined :
    (undefined : ApiProgram α).Meets (Knowledge.Allowed handles) Knowledge.after post g :=
  ⟨trivial, nofun⟩

/-- A member function that does not concern the default socket. -/
theorem meets_member {place : ℕ} {m : Member} {f : m.Result → ApiProgram α} (hplain : g.Plain)
    (hm : m.Reseats = false) (hpoints : g.Points place m.requestedType)
    (hf : ∀ r g', g'.Plain → g'.found = g.found →
      (f r).Meets (Knowledge.Allowed handles) Knowledge.after post g') :
    (member place m >>= f).Meets (Knowledge.Allowed handles) Knowledge.after post g := by
  refine And.intro ⟨hplain.reseated, Or.inl hpoints⟩ fun r => ?_
  obtain ⟨hplain', hfound⟩ := hplain.afterMember hm r
  exact hf r _ hplain' hfound

/-- What has been found before is not forgotten. -/
theorem meets_find {t : RequestedType} {handle : Datum binary64}
    {f : Option ℕ → ApiProgram α} (hplain : g.Plain) (hhandle : handle ∈ handles)
    (hf : ∀ r g', g'.Plain → g.found ⊆ g'.found →
      (∀ place, r = some place → (handle, t, place) ∈ g'.found) →
      (f r).Meets (Knowledge.Allowed handles) Knowledge.after post g') :
    (find t handle >>= f).Meets (Knowledge.Allowed handles) Knowledge.after post g := by
  refine And.intro hhandle fun r => ?_
  cases r with
  | none => exact hf none g hplain (List.Subset.refl _) nofun
  | some place =>
    have hplain' : Knowledge.Plain { g with found := (handle, t, place) :: g.found } :=
      ⟨hplain.defaultSocket, hplain.draft, hplain.reseated⟩
    refine hf (some place) _ hplain' (List.subset_cons_self _ _) fun place' hplace => ?_
    obtain rfl := Option.some.inj hplace
    exact List.mem_cons_self

end

/-- The last thing that a function does is to call a member function. -/
theorem obeys_lastMember {place : ℕ} {m : Member} {reply : m.Result → Reply} (hplain : g.Plain)
    (hpoints : g.Points place m.requestedType) :
    Obeys handles (member place m >>= fun r => .done (reply r)) g :=
  ⟨⟨hplain.reseated, Or.inl hpoints⟩, fun r => hplain.draft_afterMember m r⟩

theorem obeys_defined {α : Type} {value : Option α} {f : α → ApiProgram Reply}
    (hf : ∀ a, Obeys handles (f a) g) : Obeys handles (defined value f) g := by
  cases value with
  | none => exact meets_undefined
  | some a => exact hf a

theorem obeys_withObject {t : RequestedType} {handle : Datum binary64} {otherwise : Reply}
    {f : ℕ → ApiProgram Reply} (hplain : g.Plain) (hhandle : handle ∈ handles)
    (hf : ∀ place g', g'.Plain → (handle, t, place) ∈ g'.found → Obeys handles (f place) g') :
    Obeys handles (withObject t handle otherwise f) g := by
  refine meets_find hplain hhandle fun r g' hplain' _ hfound => ?_
  cases r with
  | none => exact hplain'.2
  | some place => exact hf place g' hplain' (hfound place rfl)

theorem obeys_withMember {m : Member} {handle : Datum binary64} {otherwise : Reply}
    {reply : m.Result → Reply} (hplain : g.Plain) (hhandle : handle ∈ handles) :
    Obeys handles (withMember m handle otherwise reply) g :=
  obeys_withObject hplain hhandle fun _ _ hplain' hfound =>
    obeys_lastMember hplain' (.of_found hfound (.refl _))

/-- Look an object up, compute something, and call one member function of it. -/
theorem obeys_withDefined {t : RequestedType} {handle : Datum binary64} {otherwise : Reply}
    {α : Type} {value : Option α} {m : α → Member} {reply : ∀ a, (m a).Result → Reply}
    (hplain : g.Plain) (hhandle : handle ∈ handles)
    (hrefines : ∀ a, t.Refines (m a).requestedType) :
    Obeys handles (withObject t handle otherwise fun place =>
      defined value fun a => member place (m a) >>= fun r => return reply a r) g :=
  obeys_withObject hplain hhandle fun _ _ hplain' hfound => obeys_defined fun a =>
    obeys_lastMember hplain' (.of_found hfound (hrefines a))

theorem obeys_allocate {c : Construction} (hplain : g.Plain) : Obeys handles (allocate c) g :=
  ⟨trivial, fun _ => hplain.2⟩

theorem obeys_udpBind (hplain : g.Plain) (port : Datum binary64) :
    Obeys handles (udpBind port) g := by
  unfold udpBind
  cases castPort port.value with
  | value | badNumericCast => exact obeys_allocate hplain
  | undefined => exact meets_undefined

theorem obeys_tcpListen (hplain : g.Plain) (port : Datum binary64) :
    Obeys handles (tcpListen port) g := by
  unfold tcpListen
  cases castPort port.value with
  | value | badNumericCast => exact obeys_allocate hplain
  | undefined => exact meets_undefined

/-! ### Functions with two pointers, and with loops -/

/-- What remains true of a program that only goes on with what it has found. -/
abbrev Remains {α : Type} (handles : List (Datum binary64)) (p : ApiProgram α) (g : Knowledge) :
    Prop :=
  p.Meets (Knowledge.Allowed handles) Knowledge.after
    (fun _ g' => g'.Plain ∧ g'.found = g.found) g

theorem remains_copyBlock {dest source : ℕ} (hplain : g.Plain)
    (hdest : g.Points dest .readWritable) (hsource : g.Points source .readWritable) (size : ℕ)
    (tempBuffer : List UInt8) : Remains handles (copyBlock dest source size tempBuffer) g := by
  unfold copyBlock
  refine meets_member hplain rfl hsource fun bytes g' hplain' hfound => ?_
  refine meets_member hplain' rfl (hdest.congr hfound) fun _ g'' hplain'' hfound' => ?_
  exact ⟨hplain'', hfound'.trans hfound⟩

theorem remains_copyFullBuffers {dest source : ℕ} (hplain : g.Plain)
    (hdest : g.Points dest .readWritable) (hsource : g.Points source .readWritable) (n : ℕ)
    (tempBuffer : List UInt8) : Remains handles (copyFullBuffers dest source n tempBuffer) g := by
  induction n generalizing g tempBuffer with
  | zero => exact ⟨hplain, rfl⟩
  | succ n ih =>
    unfold copyFullBuffers
    refine Meets.bind ((remains_copyBlock hplain hdest hsource 4096 tempBuffer).mono ?_)
    intro tempBuffer g' hg'
    refine (ih hg'.1 (hdest.congr hg'.2) (hsource.congr hg'.2) tempBuffer).mono ?_
    intro _ g'' hg''
    exact ⟨hg''.1, hg''.2.trans hg'.2⟩

theorem remains_writePieces {place : ℕ} (hplain : g.Plain) (hplace : g.Points place .readWritable)
    (pieces : List (List UInt8)) : Remains handles (writePieces place pieces) g := by
  induction pieces generalizing g with
  | nil => exact ⟨hplain, rfl⟩
  | cons piece pieces ih =>
    unfold writePieces
    refine meets_member hplain rfl hplace fun _ g' hplain' hfound => ?_
    refine (ih hplain' (hplace.congr hfound)).mono ?_
    intro _ g'' hg''
    exact ⟨hg''.1, hg''.2.trans hfound⟩

/-- The pointers that there were before are still there. -/
theorem meets_copyPart {destHandle bufferHandle : Datum binary64} (hplain : g.Plain)
    (hdest : destHandle ∈ handles) (hsource : bufferHandle ∈ handles)
    (tempBuffer : List UInt8) (intAmmount : ℕ) :
    (copyPart tempBuffer destHandle bufferHandle intAmmount).Meets (Knowledge.Allowed handles)
      Knowledge.after (fun _ g' => g'.Plain ∧ g.found ⊆ g'.found) g := by
  unfold copyPart
  refine meets_find hplain hdest fun dest g₁ hplain₁ hkept₁ hdest₁ => ?_
  refine meets_find hplain₁ hsource fun source g₂ hplain₂ hkept₂ hsource₂ => ?_
  have hkept := List.Subset.trans hkept₁ hkept₂
  cases dest with
  | none => exact ⟨hplain₂, hkept⟩
  | some dest =>
    cases source with
    | none => exact ⟨hplain₂, hkept⟩
    | some source =>
      have hd : g₂.Points dest .readWritable := .of_found (hkept₂ (hdest₁ dest rfl)) (.refl _)
      have hs : g₂.Points source .readWritable := .of_found (hsource₂ source rfl) (.refl _)
      refine meets_member hplain₂ rfl hs fun remaining g₃ hplain₃ hfound₃ => ?_
      refine Meets.bind ((remains_copyFullBuffers hplain₃ (hd.congr hfound₃) (hs.congr hfound₃)
        _ tempBuffer).mono fun tempBuffer g₄ hg₄ => ?_)
      have hfound₄ := hg₄.2.trans hfound₃
      refine Meets.bind ((remains_copyBlock hg₄.1 (hd.congr hfound₄) (hs.congr hfound₄) _
        tempBuffer).mono fun _ g₅ hg₅ => ?_)
      refine ⟨hg₅.1, ?_⟩
      rw [hg₅.2, hfound₄]
      exact hkept

theorem obeys_of_plain {p : ApiProgram Reply} {kept : Knowledge → Prop}
    (h : p.Meets (Knowledge.Allowed handles) Knowledge.after (fun _ g' => g'.Plain ∧ kept g') g) :
    Obeys handles p g := h.mono fun _ _ hg => hg.1.2

theorem obeys_writeFound {destHandle bufferHandle : Datum binary64} (hplain : g.Plain)
    (hdest : destHandle ∈ handles) (hsource : bufferHandle ∈ handles)
    (tempBuffer : List UInt8) {dest srcBuffer srcSocket : Option ℕ}
    (hdests : ∀ place, dest = some place → g.Points place .readWritable)
    (hbuffers : ∀ place, srcBuffer = some place → g.Points place .readWritable)
    (hsockets : ∀ place, srcSocket = some place → g.Points place .readWritable) :
    Obeys handles
      (writeFound tempBuffer destHandle bufferHandle dest srcBuffer srcSocket) g := by
  cases dest with
  | none => exact hplain.2
  | some dest =>
    cases srcBuffer with
    | some srcBuffer =>
      have hpoints := hbuffers srcBuffer rfl
      refine meets_member hplain rfl hpoints fun b g₁ hplain₁ hfound₁ => ?_
      refine meets_member hplain₁ rfl (hpoints.congr hfound₁) fun _ g₂ hplain₂ hfound₂ => ?_
      refine Meets.bind ?_
      cases clippedSize (.finite b.size) with
      | none => exact meets_undefined
      | some size =>
        refine (meets_copyPart hplain₂ hdest hsource tempBuffer size).mono fun _ g₃ hg₃ => ?_
        have hpoints₂ := hpoints.congr (hfound₂.trans hfound₁)
        exact meets_member hg₃.1 rfl (hpoints₂.kept hg₃.2) fun _ _ hplain₄ _ => hplain₄.2
    | none =>
      cases srcSocket with
      | none => exact hplain.2
      | some srcSocket =>
        refine meets_member hplain rfl (hsockets srcSocket rfl) fun b g₁ hplain₁ hfound₁ => ?_
        exact obeys_lastMember hplain₁ ((hdests dest rfl).congr hfound₁)

theorem obeys_writeBuffer {destHandle bufferHandle : Datum binary64} (hplain : g.Plain)
    (hdest : destHandle ∈ handles) (hsource : bufferHandle ∈ handles)
    (tempBuffer : List UInt8) :
    Obeys handles (writeBuffer tempBuffer destHandle bufferHandle) g := by
  unfold writeBuffer
  refine meets_find hplain hdest fun dest g₁ hplain₁ _ hdest₁ => ?_
  refine meets_find hplain₁ hsource fun srcBuffer g₂ hplain₂ hkept₂ hbuffer₂ => ?_
  refine meets_find hplain₂ hsource fun srcSocket g₃ hplain₃ hkept₃ hsocket₃ => ?_
  refine obeys_writeFound hplain₃ hdest hsource tempBuffer ?_ ?_ ?_
  · intro place hplace
    exact .of_found (hkept₃ (hkept₂ (hdest₁ place hplace))) (.refl _)
  · intro place hplace
    exact .of_found (hkept₃ (hbuffer₂ place hplace)) RequestedType.refines_of_buffer
  · intro place hplace
    exact .of_found (hsocket₃ place hplace) RequestedType.refines_of_socket

theorem meets_getBufferOrReceiveBuffer {α : Type} {post : α → Knowledge → Prop}
    {handle : Datum binary64} {f : Option ℕ → ApiProgram α} (hplain : g.Plain)
    (hhandle : handle ∈ handles)
    (hf : ∀ r g', g'.Plain → (∀ place, r = some place → g'.Points place .readWritable) →
      (f r).Meets (Knowledge.Allowed handles) Knowledge.after post g') :
    (getBufferOrReceiveBuffer handle >>= f).Meets (Knowledge.Allowed handles)
      Knowledge.after post g := by
  refine Meets.bind ?_
  unfold getBufferOrReceiveBuffer
  refine meets_find hplain hhandle fun buffer g₁ hplain₁ _ hbuffer => ?_
  refine meets_find hplain₁ hhandle fun socket g₂ hplain₂ hkept hsocket => ?_
  refine hf (buffer.or socket) g₂ hplain₂ fun place hplace => ?_
  rcases Option.or_eq_some_iff.mp hplace with hplace | ⟨-, hplace⟩
  · exact .of_found (hkept (hbuffer place hplace)) RequestedType.refines_of_buffer
  · exact .of_found (hsocket place hplace) RequestedType.refines_of_socket

theorem obeys_readDelimitedString {handle : Datum binary64} (hplain : g.Plain)
    (hhandle : handle ∈ handles) (delim : List UInt8) :
    Obeys handles (readDelimitedString handle delim) g := by
  unfold readDelimitedString
  refine meets_getBufferOrReceiveBuffer hplain hhandle fun r g₁ hplain₁ hpoints => ?_
  cases r with
  | none => exact hplain₁.2
  | some place =>
    have hplace := hpoints place rfl
    refine meets_member hplain₁ rfl hplace fun b g₂ hplain₂ hfound₂ => ?_
    change Obeys handles (if bytesBeforeDelimiter (some b) delim ≥ 0 then _ else _) g₂
    split
    · have hplace₂ := hplace.congr hfound₂
      refine meets_member hplain₂ rfl hplace₂ fun _ g₃ hplain₃ hfound₃ => ?_
      have hplace₃ := hplace₂.congr hfound₃
      refine meets_member hplain₃ rfl hplace₃ fun _ g₄ hplain₄ hfound₄ => ?_
      exact obeys_lastMember hplain₄ (hplace₃.congr hfound₄)
    · exact hplain₂.2

theorem obeys_readEncoded {srcHandle dLen : Datum binary64} (hplain : g.Plain)
    (hhandle : srcHandle ∈ handles)
    (encode : Buffer → ℕ → Outcome (List UInt8 × Buffer)) :
    Obeys handles (readEncoded encode srcHandle dLen) g := by
  unfold readEncoded
  refine meets_getBufferOrReceiveBuffer hplain hhandle fun r g₁ hplain₁ hpoints => ?_
  refine obeys_defined fun len => ?_
  cases r with
  | none => exact hplain₁.2
  | some place =>
    have hplace := hpoints place rfl
    refine meets_member hplain₁ rfl hplace fun b g₂ hplain₂ hfound₂ => ?_
    cases encode b len with
    | ok result =>
      exact obeys_lastMember hplain₂ (hplace.congr hfound₂)
    | _ => exact meets_undefined

/-! ### Functions that release a handle -/

theorem obeys_destroyFirst {handle : Datum binary64} (hplain : g.Plain)
    (hhandle : handle ∈ handles) (hard : Bool) {classes : List ObjectClass}
    (hclasses : ∀ c ∈ classes, c = .tcpSocket ∨ c = .combinedTcpAcceptor ∨ c = .udpSocket) :
    Obeys handles (destroyFirst handle hard classes) g := by
  induction classes generalizing g with
  | nil => exact hplain.2
  | cons c cs ih =>
    unfold destroyFirst
    refine meets_find hplain hhandle fun r g₁ hplain₁ _ hfound => ?_
    cases r with
    | none => exact ih hplain₁ fun c hc => hclasses c (List.mem_cons_of_mem _ hc)
    | some place =>
      have hfirst := hclasses c List.mem_cons_self
      exact ⟨⟨hplain₁.reseated, c, hfound place rfl, hfirst⟩, fun _ => hplain₁.2⟩

theorem obeys_destroySocket {handle : Datum binary64} (hplain : g.Plain)
    (hhandle : handle ∈ handles) (hard : Bool) :
    Obeys handles (destroySocket handle hard) g := by
  refine obeys_destroyFirst hplain hhandle hard fun c hc => ?_
  simp only [List.mem_cons, List.not_mem_nil, or_false] at hc
  exact hc

theorem obeys_releaseObject {handle : Datum binary64} (hplain : g.Plain)
    (hhandle : handle ∈ handles) {c : ObjectClass} (hc : c = .buffer ∨ c = .ipLookup) :
    Obeys handles (releaseObject c handle) g := by
  refine obeys_withObject hplain hhandle fun place g₁ hplain₁ hfound => ?_
  exact ⟨⟨c, place, hfound, hc⟩, fun _ => hplain₁.2⟩

/-! ### The default socket -/

theorem mem_seen_see {g : Knowledge} {handle : Datum binary64} {buffer : ℕ}
    (hfound : (handle, .exactly .buffer, buffer) ∈ g.found) (data : List UInt8) :
    data ∈ (g.see buffer data).seen := by
  have hbuffer : g.pointsToBuffer buffer = true :=
    List.any_eq_true.mpr ⟨_, hfound, by simp⟩
  unfold Knowledge.see
  rw [if_pos hbuffer]
  exact List.mem_cons_self

/-- What has been written is sent. -/
theorem meets_sendDraft {g : Knowledge} {sock intPort : ℕ} {m : ℕ → Member}
    {reply : (m intPort).Result → Reply} (hreseated : g.reseated = false)
    (hdefault : g.defaultSocket = some sock) (data : List UInt8)
    (hm : (∃ host, m = .sendTo host) ∨ m = .broadcast) :
    Obeys handles (member sock (m intPort) >>= fun r => .done (reply r))
      (g.setDraft sock (some data)) := by
  have hset : g.setDraft sock (some data) = { g with draft := some data } := if_pos hdefault
  rw [hset]
  rcases hm with ⟨host, rfl⟩ | rfl
  · exact ⟨⟨hreseated, Or.inr ⟨hdefault, Option.some_ne_none data⟩⟩, fun _ =>
      congrArg Knowledge.draft (if_pos hdefault)⟩
  · exact ⟨⟨hreseated, Or.inr ⟨hdefault, Option.some_ne_none data⟩⟩, fun _ =>
      congrArg Knowledge.draft (if_pos hdefault)⟩

/-- The content of a buffer is written to the default socket and sent at once. A socket that
has been found by the handle is used as it is. -/
theorem obeys_sendDatagram {handle port : Datum binary64} (hplain : g.Plain)
    (hhandle : handle ∈ handles) {m : ℕ → Member}
    {truthOf : ∀ intPort, (m intPort).Result → Bool}
    (hm : (∃ host, m = .sendTo host) ∨ m = .broadcast) :
    Obeys handles (sendDatagram handle port m truthOf) g := by
  refine obeys_defined fun intPort => ?_
  split
  · exact hplain.2
  · refine Meets.bind ?_
    refine meets_find hplain hhandle fun r g₁ hplain₁ _ hfound₁ => ?_
    cases r with
    | none =>
      refine meets_find hplain₁ hhandle fun r g₂ hplain₂ _ hfound₂ => ?_
      cases r with
      | none => exact hplain₂.2
      | some sock =>
        refine obeys_lastMember hplain₂ (.of_found (hfound₂ sock rfl) ?_)
        rcases hm with ⟨host, rfl⟩ | rfl <;> exact .refl _
    | some buffer =>
      have hbuffer := hfound₁ buffer rfl
      refine ⟨hplain₁.2, fun sock => ?_⟩
      have hpoints := Knowledge.Points.of_found hbuffer RequestedType.refines_of_buffer
      refine ⟨⟨hplain₁.reseated, Or.inl hpoints⟩, fun b => ?_⟩
      have hseen := mem_seen_see (g := { g₁ with defaultSocket := some sock }) hbuffer b.data
      have hdefault := Knowledge.defaultSocket_see { g₁ with defaultSocket := some sock } buffer
        b.data
      have hdraft := Knowledge.draft_see { g₁ with defaultSocket := some sock } buffer b.data
      have hreseated := Knowledge.reseated_see { g₁ with defaultSocket := some sock } buffer
        b.data
      have hstill := hreseated.trans hplain₁.reseated
      refine ⟨⟨hstill, Or.inr ⟨hdefault, hdraft.trans hplain₁.2, hseen⟩⟩, fun _ => ?_⟩
      exact meets_sendDraft hstill hdefault b.data hm

/-! ### All functions -/

theorem obeys_writeDecoded {handle : Datum binary64} (hplain : g.Plain)
    (hhandle : handle ∈ handles) (decoded : Option (ℤ × List (List UInt8))) :
    Obeys handles (writeDecoded handle decoded) g := by
  refine obeys_withObject hplain hhandle fun place g₁ hplain₁ hfound => ?_
  refine obeys_defined fun decoded => ?_
  exact Meets.bind ((remains_writePieces hplain₁ (.of_found hfound (.refl _)) decoded.2).mono
    fun _ _ hg => hg.1.2)

end Api

/-- Each function obeys with what it knows at the start, and that is nothing. -/
theorem ApiCall.obeys (c : ApiCall) : Api.Obeys c.handles c.program .nothing := by
  have hplain := Knowledge.plain_nothing
  have hfirst : ∀ handle : Datum binary64, handle ∈ [handle] := fun _ => List.mem_singleton_self _
  cases c with
  | tcpConnect host port =>
    refine Api.obeys_defined fun intPort => ?_
    split <;> exact Api.obeys_allocate hplain
  | udpBind port => exact Api.obeys_udpBind hplain port
  | tcpListen port => exact Api.obeys_tcpListen hplain port
  | bufferCreate | ipLookupCreate | ipv4LookupCreate | ipv6LookupCreate =>
    exact Api.obeys_allocate hplain
  | debugHandles | setLittleEndianGlobal => exact ⟨trivial, fun _ => rfl⟩
  | socketDestroy handle | socketDestroyAbortive handle =>
    exact Api.obeys_destroySocket hplain (hfirst handle) _
  | bufferDestroy handle | ipLookupDestroy handle =>
    exact Api.obeys_releaseObject hplain (hfirst handle) (by decide)
  | socketAccept handle =>
    refine Api.obeys_withObject hplain (hfirst handle) fun place g₁ hplain₁ hfound => ?_
    refine ⟨⟨hplain₁.reseated, .of_found hfound (.refl _)⟩, fun r => ?_⟩
    cases r <;> exact hplain₁.2
  | tcpReceive handle size =>
    refine Api.obeys_withObject hplain (hfirst handle) fun place g₁ hplain₁ hfound => ?_
    cases numericCast size.value with
    | value n =>
      exact Api.obeys_lastMember hplain₁ (.of_found hfound (.refl _))
    | badNumericCast => exact hplain₁.2
    | undefined => exact Api.meets_undefined
  | socketReceivebufferSize handle =>
    refine Api.obeys_withObject hplain (hfirst handle) fun place g₁ hplain₁ hfound => ?_
    exact Api.obeys_lastMember hplain₁ (.of_found hfound RequestedType.refines_of_socket)
  | bufferSize handle =>
    refine Api.obeys_withObject hplain (hfirst handle) fun place g₁ hplain₁ hfound => ?_
    exact Api.obeys_lastMember hplain₁ (.of_found hfound RequestedType.refines_of_buffer)
  | socketSendbufferLimit handle sizeLimit =>
    exact Api.obeys_withDefined hplain (hfirst handle) fun _ => .refl _
  | writeUbyte handle | writeByte handle | writeUshort handle | writeShort handle
  | writeUint handle | writeInt handle | bufferSetReadpos handle | readString handle =>
    exact Api.obeys_withDefined hplain (hfirst handle) fun _ => .refl _
  | writeBufferPart tempBuffer destHandle bufferHandle ammount =>
    refine Api.obeys_defined fun size => ?_
    exact Api.obeys_of_plain (Api.meets_copyPart hplain List.mem_cons_self
      (List.mem_cons_of_mem _ List.mem_cons_self) tempBuffer size)
  | writeBuffer tempBuffer destHandle bufferHandle =>
    exact Api.obeys_writeBuffer hplain List.mem_cons_self
      (List.mem_cons_of_mem _ List.mem_cons_self) tempBuffer
  | writeHex handle | writeBase64 handle => exact Api.obeys_writeDecoded hplain (hfirst handle) _
  | appendFileToBuffer handle file =>
    refine Api.obeys_withObject hplain (hfirst handle) fun place g₁ hplain₁ hfound => ?_
    cases file with
    | error number => exact hplain₁.2
    | ok bytes =>
      exact Api.obeys_lastMember hplain₁ (.of_found hfound (.refl _))
  | fnetHiddenReadBinaryString handle outstr =>
    refine Api.meets_getBufferOrReceiveBuffer hplain (hfirst handle) fun r g₁ hplain₁ hr => ?_
    cases r with
    | none => exact hplain₁.2
    | some place => exact Api.obeys_lastMember hplain₁ (hr place rfl)
  | fnetHiddenSkipLengthOfString handle skip =>
    refine Api.meets_getBufferOrReceiveBuffer hplain (hfirst handle) fun r g₁ hplain₁ hr => ?_
    cases r with
    | none => exact hplain₁.2
    | some place =>
      refine Api.meets_member hplain₁ rfl (hr place rfl) fun _ _ hplain₂ hfound₂ => ?_
      exact Api.obeys_lastMember hplain₂ ((hr place rfl).congr hfound₂)
  | writeBufferToFile handle file =>
    refine Api.meets_getBufferOrReceiveBuffer hplain (hfirst handle) fun r g₁ hplain₁ hr => ?_
    cases r with
    | none => exact hplain₁.2
    | some place =>
      cases file with
      | none => exact hplain₁.2
      | some room =>
        exact Api.obeys_lastMember hplain₁ (hr place rfl)
  | socketLocalPort handle =>
    refine Api.meets_find hplain (hfirst handle) fun r g₁ hplain₁ _ hr => ?_
    cases r with
    | none => exact Api.obeys_withMember hplain₁ (hfirst handle)
    | some place => exact Api.obeys_lastMember hplain₁ (.of_found (hr place rfl) (.refl _))
  | fnetHiddenBytesBeforeDelimiter handle needle =>
    refine Api.meets_getBufferOrReceiveBuffer hplain (hfirst handle) fun r g₁ hplain₁ hr => ?_
    cases r with
    | none => exact hplain₁.2
    | some place => exact Api.obeys_lastMember hplain₁ (hr place rfl)
  | fnetHiddenReadDelimitedString handle | fnetHiddenReadCstring handle =>
    exact Api.obeys_readDelimitedString hplain (hfirst handle) _
  | readHex handle | readBase64 handle => exact Api.obeys_readEncoded hplain (hfirst handle) _
  | udpSend handle host port =>
    exact Api.obeys_sendDatagram hplain (hfirst handle) (Or.inl ⟨host, rfl⟩)
  | udpBroadcast handle port =>
    exact Api.obeys_sendDatagram hplain (hfirst handle) (Or.inr rfl)
  | tcpSetNodelay handle | socketConnecting handle | tcpListeningV4 handle
  | tcpListeningV6 handle | socketHasError handle | socketError handle | socketRemoteIp handle
  | socketRemotePort handle | tcpReceiveAvailable handle | tcpEof handle | socketSend handle
  | socketSendbufferSize handle | writeFloat handle | writeDouble handle | writeString handle
  | fnetHiddenWriteBinaryString handle | bufferClear handle | bufferBytesLeft handle
  | readUbyte handle | readByte handle | readUshort handle | readShort handle | readUint handle
  | readInt handle | readFloat handle | readDouble handle | udpReceive handle
  | setLittleEndian handle | ipLookupReady handle | ipLookupHasNext handle
  | ipLookupNextResult handle => exact Api.obeys_withMember hplain (hfirst handle)

end FaucetNetworking
