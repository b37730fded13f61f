import RemoteModel.Host
import RemoteModel.Proofs.Entries
import RemoteModel.Proofs.Results

/-!
Requests whose headers have the same names. They are prepared and sent alike, whatever the values of the
headers, unless one of these cannot travel.
-/

namespace RemoteModel

namespace Headers

theorem names_putIn {es es' : Entries Text} (h : es.names = es'.names) (name value value' : Text) :
    (putIn name value es).names = (putIn name value' es').names := by
  induction es generalizing es' with
  | nil =>
      cases es' with
      | nil => rfl
      | cons => cases h
  | cons e es ih =>
      cases es' with
      | nil => cases h
      | cons e' es' =>
          obtain ⟨hname, hrest⟩ : e.1 = e'.1 ∧ Entries.names es = Entries.names es' := List.cons.inj h
          rw [putIn, putIn, hname]
          split
          next => exact congrArg (name :: ·) hrest
          next => exact congrArg (e'.1 :: ·) (ih hrest)

theorem names_putAll {hs hs' : Headers} (h : hs.entries.names = hs'.entries.names)
    {es es' : Entries Text} (hes : es.names = es'.names) :
    (hs.putAll es).entries.names = (hs'.putAll es').entries.names := by
  induction es generalizing es' hs hs' with
  | nil =>
      cases es' with
      | nil => exact h
      | cons => cases hes
  | cons e es ih =>
      cases es' with
      | nil => cases hes
      | cons e' es' =>
          obtain ⟨hname, hrest⟩ : e.1 = e'.1 ∧ Entries.names es = Entries.names es' := List.cons.inj hes
          change ((hs.put e.1 e.2).putAll es).entries.names = ((hs'.put e'.1 e'.2).putAll es').entries.names
          rw [hname]
          exact ih (names_putIn h e'.1 e.2 e'.2) hrest

theorem has_eq (hs : Headers) (name : Text) :
    hs.has name = hs.entries.names.any fun n => n.lower = name.lower := by
  unfold has get? Entries.names
  rw [List.any_map, Option.isSome_map, List.isSome_find?]
  rfl

end Headers

/-- Requests that differ in nothing but the values of their headers. -/
structure Request.Alike (r r' : Request) : Prop where
  method : r.method = r'.method
  url : r.url = r'.url
  names : r.headers.entries.names = r'.headers.entries.names
  body : r.body = r'.body

namespace Request

variable {r r' : Request}

theorem Alike.declareLength (h : Alike r r') : Alike r.declareLength r'.declareLength := by
  obtain ⟨method, url, headers, body⟩ := r
  obtain ⟨_, _, headers', _⟩ := r'
  obtain ⟨rfl, rfl, hnames, rfl⟩ := h
  have hput (value : Text) := Headers.names_putIn hnames contentLength value value
  have hhas : headers.has contentLength = headers'.has contentLength := by
    rw [Headers.has_eq, Headers.has_eq, hnames]
  unfold Request.declareLength
  dsimp only at hhas ⊢
  rw [hhas]
  split
  next => exact ⟨rfl, rfl, hput _, rfl⟩
  next =>
    split
    next => exact ⟨rfl, rfl, hnames, rfl⟩
    next => exact ⟨rfl, rfl, hput _, rfl⟩

theorem Alike.withUser (h : Alike r r') : RemoteModel.Alike Alike r.withUser r'.withUser := by
  obtain ⟨method, url, headers, body⟩ := r
  obtain ⟨_, _, headers', _⟩ := r'
  obtain ⟨rfl, rfl, hnames, rfl⟩ := h
  have hput (value : Text) := Headers.names_putIn hnames "Authorization" value value
  unfold Request.withUser
  refine .bind (.of_eq (R := Eq) (fun _ => rfl) _) fun a a' ha => ?_
  cases ha
  split
  next => exact .ok ⟨rfl, rfl, hnames, rfl⟩
  next =>
    split
    next =>
      dsimp only
      split
      next => exact .ok ⟨rfl, rfl, hnames, rfl⟩
      next =>
        refine .bind (.of_eq (R := Eq) (fun _ => rfl) _) fun name name' hname => ?_
        cases hname
        refine .bind (.of_eq (R := Eq) (fun _ => rfl) _) fun password password' hpassword => ?_
        cases hpassword
        exact .ok ⟨rfl, rfl, hput _, rfl⟩
    next => exact .ok ⟨rfl, rfl, hnames, rfl⟩

/-- The error that refuses a header says what it holds. -/
def Unsafe {α : Type} (x : Except Failure α) : Prop :=
  ∃ part text, x = .error (.headerUnsafe part text)

theorem checkHeaders_unsafe (es : Entries Text) : checkHeaders es = .ok () ∨ Unsafe (checkHeaders es) := by
  induction es with
  | nil => exact .inl rfl
  | cons e es ih =>
      obtain ⟨name, value⟩ := e
      unfold checkHeaders
      split
      next => exact .inr ⟨_, _, rfl⟩
      next =>
        split
        next => exact .inr ⟨_, _, rfl⟩
        next => exact ih

/-- What becomes of two drafts that differ in the values of their headers. -/
inductive Prepares : Except Failure Request → Except Failure Request → Prop
  | alike {x x' : Except Failure Request} : RemoteModel.Alike Alike x x' → Prepares x x'
  | both {x x' : Except Failure Request} : Unsafe x → Unsafe x' → Prepares x x'
  | left {x : Except Failure Request} (r : Request) : Unsafe x → Prepares x (.ok r)
  | right {x : Except Failure Request} (r : Request) : Unsafe x → Prepares (.ok r) x

theorem prepare_cases [HostEncoder] (method url : Text) {hs hs' : Entries Text}
    (hnames : hs.names = hs'.names) (body : Option Bytes) :
    Prepares (prepare method url hs body) (prepare method url hs' body) := by
  unfold prepare
  cases Target.prepare url with
  | error f => exact .alike (.error f)
  | ok url =>
      dsimp only [bind, Except.bind]
      have hall : ((Headers.ofEntries standardHeaders).putAll hs).entries.names =
          ((Headers.ofEntries standardHeaders).putAll hs').entries.names :=
        Headers.names_putAll rfl hnames
      have hrequest : Alike ⟨method, url, (Headers.ofEntries standardHeaders).putAll hs,
          body.filter fun b => !b.isEmpty⟩ ⟨method, url,
          (Headers.ofEntries standardHeaders).putAll hs', body.filter fun b => !b.isEmpty⟩ :=
        ⟨rfl, rfl, hall, rfl⟩
      rcases checkHeaders_unsafe ((Headers.ofEntries standardHeaders).putAll hs).entries with
        hsafe | ⟨part, text, hbad⟩ <;>
      rcases checkHeaders_unsafe ((Headers.ofEntries standardHeaders).putAll hs').entries with
        hsafe' | ⟨part', text', hbad'⟩
      · rw [hsafe, hsafe']
        exact .alike (.ok hrequest.declareLength)
      · rw [hsafe, hbad']
        exact .right _ ⟨_, _, rfl⟩
      · rw [hbad, hsafe']
        exact .left _ ⟨_, _, rfl⟩
      · rw [hbad, hbad']
        exact .both ⟨_, _, rfl⟩ ⟨_, _, rfl⟩

end Request

/-- The class of the error that a result is. -/
def kindOf {α : Type} : Except Failure α → Option ErrorClass
  | .ok _ => none
  | .error f => some f.kind

theorem Request.withUser_kind {r : Request} {f : Failure} (h : r.withUser = .error f) :
    f.kind ≠ .http .invalidHeader := by
  have hparse {t : Text} {g : Failure} (hg : Address.parse t = .error g) :
      g.kind ≠ .http .invalidHeader := by
    unfold Address.parse at hg
    dsimp only at hg
    split at hg <;> cases hg
    exact nofun
  have hlatin {t : Text} {g : Failure} (hg : encodeLatin t = .error g) :
      g.kind ≠ .http .invalidHeader := by
    unfold encodeLatin at hg
    dsimp only at hg
    split at hg <;> cases hg
    exact nofun
  unfold withUser at h
  rcases error_of_bind.mp h with h | ⟨a, _, h⟩
  · exact hparse h
  · split at h
    next => cases h
    next =>
      split at h
      next =>
        dsimp only at h
        split at h
        next => cases h
        next =>
          rcases error_of_bind.mp h with h | ⟨_, _, h⟩
          · exact hlatin h
          · rcases error_of_bind.mp h with h | ⟨_, _, h⟩
            · exact hlatin h
            · cases h
      next => cases h

structure Sending.Alike (x x' : Sending) : Prop where
  session : x.session = x'.session
  request : Request.Alike x.request x'.request
  streamed : x.streamed = x'.streamed
  connectTimeout : x.connectTimeout = x'.connectTimeout
  readTimeout : x.readTimeout = x'.readTimeout

/-- Hosts that differ in nothing but the values of the headers that were sent. -/
structure Host.Alike (h h' : Host) : Prop where
  rest : h' = { h with sent := h'.sent }
  sent : List.Forall₂ Sending.Alike h.sent h'.sent

namespace Host

theorem Alike.refl (h : Host) : Alike h h :=
  ⟨rfl, List.forall₂_same.mpr fun _ _ => ⟨rfl, ⟨rfl, rfl, rfl, rfl⟩, rfl, rfl, rfl⟩⟩

theorem Alike.journal {h h' : Host} (halike : Alike h h') : h.journal = h'.journal := by
  rw [halike.rest]

theorem Alike.log {h h' : Host} (halike : Alike h h') (records : List LogRecord) :
    Alike (HasJournal.log records h) (HasJournal.log records h') := by
  obtain ⟨hrest, hsent⟩ := halike
  refine ⟨?_, hsent⟩
  rw [hrest]
  rfl

theorem Alike.advance {h h' : Host} (halike : Alike h h') (seconds : Rat) :
    Alike (HasJournal.advance seconds h) (HasJournal.advance seconds h') := by
  obtain ⟨hrest, hsent⟩ := halike
  refine ⟨?_, hsent⟩
  rw [hrest]
  rfl

theorem Alike.exchange {h h' : Host} (halike : Alike h h') (session : Session) {r r' : Request}
    (hr : Request.Alike r r') (streamed : Bool) (connect read : Binary64) :
    (h.exchange session r streamed connect read).1 =
        (h'.exchange session r' streamed connect read).1 ∧
      Alike (h.exchange session r streamed connect read).2
        (h'.exchange session r' streamed connect read).2 := by
  obtain ⟨hrest, hsent⟩ := halike
  have hmore : List.Forall₂ Sending.Alike (h.sent ++ [⟨session, r, streamed, connect, read⟩])
      (h'.sent ++ [⟨session, r', streamed, connect, read⟩]) :=
    List.rel_append hsent (.cons ⟨rfl, hr, rfl, rfl, rfl⟩ .nil)
  have hexchanges : h'.exchanges = h.exchanges := by rw [hrest]
  unfold Host.exchange
  rw [← hr.url]
  split
  next => exact ⟨rfl, hrest, hsent⟩
  next =>
    dsimp only
    rw [hexchanges]
    cases h.exchanges with
    | nil => exact ⟨rfl, by rw [hrest], hmore⟩
    | cons x rest =>
        dsimp only
        cases x.reply with
        | error f => exact ⟨rfl, by rw [hrest]; rfl, hmore⟩
        | ok a =>
            dsimp only
            split
            next => exact ⟨rfl, by rw [hrest]; rfl, hmore⟩
            next => exact ⟨rfl, by rw [hrest]; rfl, hmore⟩

end Host

end RemoteModel
