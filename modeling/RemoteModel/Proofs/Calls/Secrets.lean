import RemoteModel.Proofs.Calls.Alike
import RemoteModel.Proofs.Calls.Single
import RemoteModel.Proofs.Connector.Credential

/-!
What credential values reach. Two executors of one connector that differ in nothing but the values do the
same and say the same, unless the network is never asked: a value that no header can hold is quoted by
the error that refuses it.
-/

namespace RemoteModel

structure Draft.Alike (d d' : Draft) : Prop where
  endpoint : d.endpoint = d'.endpoint
  method : d.method = d'.method
  names : d.headers.names = d'.headers.names
  body : d.body = d'.body
  streamed : d.streamed = d'.streamed

namespace Executor

/-- The executor with another table of credential values and another way to decrypt them. -/
def twin (e : Executor) (credential : Entries (Option Text)) (decrypt : Option Decryptor) : Executor :=
  { e with connector := { e.connector with credential := credential }, decrypt := decrypt }

/-- What the values of the credential are in plain form. -/
def plain (e : Executor) : Except Failure (Entries Text) :=
  e.connector.plainCredential (e.decrypt.getD .ok)

/-- Two errors that refuse a header, each with what it holds. -/
inductive Refuses : Failure → Failure → Prop
  | intro (part part' : HeaderPart) (text text' : Text) :
      Refuses (.headerUnsafe part text) (.headerUnsafe part' text')

/-- The errors that may tell two tables of credential values apart: both refuse a header, or both are
errors of the decryptors. -/
inductive Discloses (plain plain' : Except Failure (Entries Text)) : Failure → Failure → Prop
  | header {f f' : Failure} : Refuses f f' → Discloses plain plain' f f'
  | undecrypted {f f' : Failure} : plain = .error f → plain' = .error f' → Discloses plain plain' f f'

variable {e : Executor} {credential : Entries (Option Text)} {decrypt : Option Decryptor}

theorem names_withContentType {hs hs' : Entries Text} (h : hs.names = hs'.names) :
    (withContentType hs).names = (withContentType hs').names := by
  have hany : (hs.any fun e => e.1.lower = contentType.lower) =
      hs'.any fun e => e.1.lower = contentType.lower := by
    have hall := congrArg (List.any · fun n : Text => n.lower = contentType.lower) h
    unfold Entries.names at hall
    rw [List.any_map, List.any_map] at hall
    exact hall
  unfold withContentType
  rw [hany]
  split
  next => exact h
  next => rw [Entries.names_put, Entries.names_put, h]

theorem draft_twin (hsame : Connector.SameNames e.connector.credential credential)
    (hdecrypt : e.plain.isOk = (e.twin credential decrypt).plain.isOk) (c : Call) :
    Alike Draft.Alike (e.draft c) ((e.twin credential decrypt).draft c) ∨
      ∃ f f', e.plain = .error f ∧ (e.twin credential decrypt).plain = .error f' ∧
        e.draft c = .error f ∧ (e.twin credential decrypt).draft c = .error f' := by
  have hheaders := e.connector.headers_twin hsame hdecrypt c.action c.parameters
  unfold draft
  cases methodOf c.method with
  | error => exact .inl (.error _)
  | ok method =>
      dsimp only [bind, Except.bind]
      cases bodyOf method c.payload with
      | error => exact .inl (.error _)
      | ok body =>
          rcases hheaders with halike | ⟨f, f', hplain, hplain', hf, hf'⟩
          · exact .inl (halike.bind fun hs hs' hnames =>
              .ok ⟨rfl, rfl, names_withContentType hnames, rfl, rfl⟩)
          · refine .inr ⟨f, f', hplain, hplain', ?_, ?_⟩
            · dsimp only
              rw [hf]
            · dsimp only
              exact error_of_bind.mpr (.inl hf')

theorem transmit_twin (e : Executor) (credential : Entries (Option Text))
    (decrypt : Option Decryptor) {d d' : Draft} (hd : Draft.Alike d d') {r r' : Request}
    (hr : Request.Alike r r') {h h' : Host} (hh : Host.Alike h h') :
    (e.transmit d r h).1 = ((e.twin credential decrypt).transmit d' r' h').1 ∧
      Host.Alike (e.transmit d r h).2 ((e.twin credential decrypt).transmit d' r' h').2 := by
  obtain ⟨endpoint, method, headers, body, streamed⟩ := d
  obtain ⟨_, _, headers', _, _⟩ := d'
  obtain ⟨rfl, rfl, hnames, rfl, rfl⟩ := hd
  obtain ⟨hresult, hhost⟩ := hh.exchange e.session hr streamed e.settings.connectTimeout
    e.settings.readTimeout
  unfold transmit
  rw [show (e.twin credential decrypt).session = e.session from rfl, hh.journal]
  dsimp only [twin]
  cases hrun : h.exchange e.session r streamed e.settings.connectTimeout
    e.settings.readTimeout with
  | mk result h₁ =>
      cases hrun' : h'.exchange e.session r' streamed e.settings.connectTimeout
        e.settings.readTimeout with
      | mk result' h₁' =>
          rw [hrun, hrun'] at hresult hhost
          obtain rfl : result = result' := hresult
          cases result with
          | ok a =>
              dsimp only
              rw [hhost.journal]
              exact ⟨rfl, hhost.log _⟩
          | error f =>
              dsimp only
              split
              next => exact ⟨rfl, hhost.log _⟩
              next => exact ⟨rfl, hhost⟩

theorem transmit_kind (e : Executor) (d : Draft) (r : Request) (h : Host) :
    kindOf (e.transmit d r h).1 ≠ some (.http .invalidHeader) := by
  unfold transmit
  dsimp only
  split
  next => exact nofun
  next f _ _ =>
    split
    next => exact nofun
    next hother =>
      intro hkind
      have hinvalid : f.kind = .http .invalidHeader := Option.some.inj hkind
      unfold Failure.isA at hother
      rw [hinvalid] at hother
      exact hother rfl

theorem attempt_kind [HostEncoder] {d : Draft} {r : Request}
    (hprepare : Request.prepare d.method d.endpoint d.headers d.body = .ok r) (h : Host) :
    kindOf (e.attempt d (.unsigned, h)).1 ≠ some (.http .invalidHeader) := by
  have htries := e.attempt_tries d .unsigned h
  generalize e.attempt d (.unsigned, h) = ending at htries ⊢
  cases htries with
  | unprepared hfails => cases hprepare.symm.trans hfails
  | unsigned _ hsign =>
      have hfails := congrArg Prod.fst hsign
      exact fun hkind => Request.withUser_kind hfails (Option.some.inj hkind)
  | sent => exact e.transmit_kind d _ _

theorem attempt_unprepared [HostEncoder] {d : Draft} {f : Failure}
    (hfails : Request.prepare d.method d.endpoint d.headers d.body = .error f) (h : Host) :
    e.attempt d (.unsigned, h) = (.error f, .unsigned, h) := by
  unfold attempt
  rw [hfails]

theorem attempt_prepared [HostEncoder] {d d' : Draft} (hd : Draft.Alike d d') {r r' : Request}
    (hr : Request.Alike r r')
    (hprepare : Request.prepare d.method d.endpoint d.headers d.body = .ok r)
    (hprepare' : Request.prepare d'.method d'.endpoint d'.headers d'.body = .ok r')
    {h h' : Host} (hh : Host.Alike h h') :
    (e.attempt d (.unsigned, h)).1 = ((e.twin credential decrypt).attempt d' (.unsigned, h')).1 ∧
      (e.attempt d (.unsigned, h)).2.1 = .unsigned ∧
      ((e.twin credential decrypt).attempt d' (.unsigned, h')).2.1 = .unsigned ∧
      Host.Alike (e.attempt d (.unsigned, h)).2.2
        ((e.twin credential decrypt).attempt d' (.unsigned, h')).2.2 := by
  have huser := hr.withUser
  unfold attempt RequestAuth.sign
  rw [hprepare, hprepare']
  dsimp only
  generalize r.withUser = y at huser ⊢
  generalize r'.withUser = y' at huser ⊢
  cases huser with
  | error f => exact ⟨rfl, rfl, rfl, hh⟩
  | ok hr =>
      obtain ⟨hresult, hhost⟩ := transmit_twin e credential decrypt hd hr hh
      exact ⟨hresult, rfl, rfl, hhost⟩

/-- Attempts of which both or none is refused for a header. -/
theorem attempt_twin [HostEncoder] {d d' : Draft} (hd : Draft.Alike d d') {h h' : Host} (hh : Host.Alike h h')
    (hkind : kindOf (e.attempt d (.unsigned, h)).1 = some (.http .invalidHeader) ↔
      kindOf ((e.twin credential decrypt).attempt d' (.unsigned, h')).1 =
        some (.http .invalidHeader)) :
    Matches Refuses (e.attempt d (.unsigned, h)).1
        ((e.twin credential decrypt).attempt d' (.unsigned, h')).1 ∧
      (e.attempt d (.unsigned, h)).2.1 = .unsigned ∧
      ((e.twin credential decrypt).attempt d' (.unsigned, h')).2.1 = .unsigned ∧
      Host.Alike (e.attempt d (.unsigned, h)).2.2
        ((e.twin credential decrypt).attempt d' (.unsigned, h')).2.2 := by
  have hprepares := Request.prepare_cases d.method d.endpoint hd.names d.body
  have hmade : Request.prepare d'.method d'.endpoint d'.headers d'.body =
      Request.prepare d.method d.endpoint d'.headers d.body := by
    rw [hd.method, hd.endpoint, hd.body]
  generalize hx : Request.prepare d.method d.endpoint d.headers d.body = x at hprepares
  generalize hx' : Request.prepare d.method d.endpoint d'.headers d.body = x' at hprepares hmade
  cases hprepares with
  | both hbad hbad' =>
      obtain ⟨part, text, rfl⟩ := hbad
      obtain ⟨part', text', rfl⟩ := hbad'
      rw [attempt_unprepared hx, attempt_unprepared hmade]
      exact ⟨.apart ⟨part, part', text, text'⟩, rfl, rfl, hh⟩
  | left r hbad =>
      obtain ⟨part, text, rfl⟩ := hbad
      rw [attempt_unprepared hx] at hkind
      exact absurd (hkind.mp rfl) (attempt_kind hmade h')
  | right r hbad =>
      obtain ⟨part, text, rfl⟩ := hbad
      rw [attempt_unprepared hmade] at hkind
      exact absurd (hkind.mpr rfl) (attempt_kind hx h)
  | alike halike =>
      cases halike with
      | error f =>
          rw [attempt_unprepared hx, attempt_unprepared hmade]
          exact ⟨.same _, rfl, rfl, hh⟩
      | @ok r r' hr =>
          obtain ⟨hresult, hends⟩ := attempt_prepared hd hr hx hmade hh
          rw [hresult]
          exact ⟨.same _, hends⟩

theorem kindOf_seen (e : Executor) (b : Breaker) (ending : Breaker.Ending Response) :
    kindOf (Breaker.seen e.guard b ending) = some (.http .invalidHeader) ↔
      kindOf ending.result = some (.http .invalidHeader) := by
  unfold Breaker.seen
  split
  next hfailed =>
    obtain ⟨f, hresult, hcounts⟩ := Breaker.result_of_failed hfailed.1
    refine iff_of_false nofun fun hkind => ?_
    rw [hresult] at hkind
    have hinvalid : f.kind = .http .invalidHeader := Option.some.inj hkind
    change f.kind.isA _ = true at hcounts
    rw [hinvalid] at hcounts
    cases hcounts
  next => exact Iff.rfl

theorem kindOf_call [HostEncoder] {c : Call} {d : Draft} {h : Host} {b : Breaker} {records : List LogRecord}
    (hdraft : e.draft c = .ok d) (henter : e.breaker.enter h.journal.now = some (b, records)) :
    kindOf (e.call c h).1 = some (.http .invalidHeader) ↔
      kindOf (e.attempt d (e.auth, HasJournal.log records h)).1 = some (.http .invalidHeader) := by
  obtain ⟨h', _, hcall⟩ := call_of_enter hdraft henter rfl
  rw [hcall]
  exact e.kindOf_seen b _

theorem call_eq [HostEncoder] {c : Call} {d : Draft} (hdraft : e.draft c = .ok d) (h : Host) :
    e.call c h =
      let ending := e.breaker.run (.own .serviceUnavailable) e.breaker.name counts (fun _ => [])
        (e.attempt d) (e.auth, h)
      (ending.1, { e with breaker := ending.2.1, auth := ending.2.2.1 }, ending.2.2.2) := by
  unfold call
  rw [hdraft]

theorem kindOf_attempts [HostEncoder] {c : Call} {d d' : Draft} {h h' : Host} (hauth : e.auth = .unsigned)
    (hh : Host.Alike h h') (hdraft : e.draft c = .ok d)
    (hdraft' : (e.twin credential decrypt).draft c = .ok d')
    (hkind : kindOf (e.call c h).1 = kindOf ((e.twin credential decrypt).call c h').1)
    {b : Breaker} {records : List LogRecord}
    (henter : e.breaker.enter h.journal.now = some (b, records)) :
    kindOf (e.attempt d (.unsigned, HasJournal.log records h)).1 = some (.http .invalidHeader) ↔
      kindOf ((e.twin credential decrypt).attempt d' (.unsigned, HasJournal.log records h')).1 =
        some (.http .invalidHeader) := by
  have hcall := kindOf_call hdraft henter
  rw [hh.journal] at henter
  have hcall' := kindOf_call hdraft' henter
  rw [hauth] at hcall
  rw [show (e.twin credential decrypt).auth = .unsigned from hauth] at hcall'
  rw [← hcall, ← hcall', hkind]

/-- One call, by an executor and its twin. -/
theorem call_twin [HostEncoder] (hauth : e.auth = .unsigned)
    (hsame : Connector.SameNames e.connector.credential credential)
    (hdecrypt : e.plain.isOk = (e.twin credential decrypt).plain.isOk) (c : Call) {h h' : Host}
    (hh : Host.Alike h h')
    (hkind : kindOf (e.call c h).1 = kindOf ((e.twin credential decrypt).call c h').1) :
    Matches (Discloses e.plain (e.twin credential decrypt).plain) (e.call c h).1
        ((e.twin credential decrypt).call c h').1 ∧
      (e.call c h).2.1.auth = .unsigned ∧
      ((e.twin credential decrypt).call c h').2.1 = (e.call c h).2.1.twin credential decrypt ∧
      Host.Alike (e.call c h).2.2 ((e.twin credential decrypt).call c h').2.2 := by
  rcases draft_twin hsame hdecrypt c with halike | ⟨f, f', hplain, hplain', hdraft, hdraft'⟩
  · generalize hx : e.draft c = x at halike
    generalize hx' : (e.twin credential decrypt).draft c = x' at halike
    cases halike with
    | error f =>
        rw [call_undrafted hx, call_undrafted hx']
        exact ⟨.same _, hauth, rfl, hh⟩
    | @ok d d' hd =>
        obtain ⟨hresult, hbreaker, hunsigned, hunsigned', hhost⟩ :=
          Breaker.run_matches (fun s s' : RequestAuth × Host => s.1 = .unsigned ∧ s'.1 = .unsigned ∧
              Host.Alike s.2 s'.2) Refuses e.breaker (.own .serviceUnavailable) e.breaker.name counts
            (e.attempt d) ((e.twin credential decrypt).attempt d')
            (fun s s' halike => congrArg Journal.now halike.2.2.journal)
            (fun records s s' ⟨hauth, hauth', hh⟩ => ⟨hauth, hauth', hh.log records⟩)
            (fun f f' hf => by cases hf; exact ⟨rfl, rfl⟩)
            (.unsigned, h) (.unsigned, h') ⟨rfl, rfl, hh⟩ fun b records henter =>
              attempt_twin hd (hh.log records) (kindOf_attempts hauth hh hx hx' hkind henter)
        rw [call_eq hx, call_eq hx', hauth, show (e.twin credential decrypt).auth = .unsigned from hauth]
        refine ⟨hresult.mono fun _ _ => .header, hunsigned, ?_, hhost⟩
        dsimp only [twin] at hbreaker hunsigned hunsigned' ⊢
        rw [hbreaker, hunsigned, hunsigned']
  · rw [call_undrafted hdraft, call_undrafted hdraft']
    exact ⟨.apart (.undecrypted hplain hplain'), hauth, rfl, hh⟩

theorem connector_call [HostEncoder] (e : Executor) (c : Call) (h : Host) :
    (e.call c h).2.1.connector = e.connector ∧ (e.call c h).2.1.decrypt = e.decrypt := by
  unfold call
  split <;> exact ⟨rfl, rfl⟩

/-- What the calls among some deeds end in. -/
def results [HostEncoder] (s : Executor × Host) : List Deed → List (Except Failure Response)
  | [] => []
  | .call c :: deeds => (s.1.call c s.2).1 :: results (perform s (.call c)) deeds
  | .wait seconds :: deeds => results (perform s (.wait seconds)) deeds

theorem deeds_twin [HostEncoder] (credential : Entries (Option Text)) (decrypt : Option Decryptor)
    (hauth : e.auth = .unsigned)
    (hsame : Connector.SameNames e.connector.credential credential)
    (hdecrypt : e.plain.isOk = (e.twin credential decrypt).plain.isOk) (deeds : List Deed) {h h' : Host}
    (hh : Host.Alike h h')
    (hkinds : (results (e, h) deeds).map kindOf =
      (results (e.twin credential decrypt, h') deeds).map kindOf) :
    Host.Alike (deeds.foldl perform (e, h)).2
        (deeds.foldl perform (e.twin credential decrypt, h')).2 ∧
      List.Forall₂ (Matches (Discloses e.plain (e.twin credential decrypt).plain))
        (results (e, h) deeds) (results (e.twin credential decrypt, h') deeds) := by
  induction deeds generalizing e h h' with
  | nil => exact ⟨hh, .nil⟩
  | cons deed deeds ih =>
      cases deed with
      | wait seconds => exact ih hauth hsame hdecrypt (hh.advance seconds) hkinds
      | call c =>
          obtain ⟨hkind, hkinds⟩ := List.cons.inj hkinds
          obtain ⟨hresult, hauth₁, hcalled, hh₁⟩ := call_twin hauth hsame hdecrypt c hh hkind
          obtain ⟨hconnector, hkept⟩ := e.connector_call c h
          have hplain : (e.call c h).2.1.plain = e.plain := by
            unfold plain
            rw [hconnector, hkept]
          have hplain' : ((e.call c h).2.1.twin credential decrypt).plain =
              (e.twin credential decrypt).plain := by
            unfold plain twin
            dsimp only
            rw [hconnector]
          have hperformed : perform (e.twin credential decrypt, h') (.call c) =
              ((e.call c h).2.1.twin credential decrypt,
                ((e.twin credential decrypt).call c h').2.2) := Prod.ext hcalled rfl
          have hnext := ih hauth₁ (by rw [hconnector]; exact hsame)
            (by rw [hplain, hplain']; exact hdecrypt) hh₁ (by rw [← hperformed]; exact hkinds)
          rw [hplain, hplain', ← hperformed] at hnext
          exact ⟨hnext.1, .cons hresult hnext.2⟩

theorem ofConnector_http {c : Connector} (hprotocol : c.protocol = .http) (settings : HttpSettings)
    (decrypt : Option Decryptor) (h : Host) : ofConnector c settings decrypt h =
      (.ok ⟨.http, c, settings, decrypt,
        .create (breakerName c) settings.breakerThreshold settings.breakerTimeout, .unsigned⟩, h) := by
  unfold ofConnector create
  rw [hprotocol]
  rfl

/-- Two executors of one connector but for the values of its credential, under the same names, with any
decryptors that both succeed or both fail. As long as their calls end in results of the same kind, they
log the same records and take the same time, and what they send differs in the values of headers alone.
Their calls give the same answers, and the same errors, unless both refuse a header or both are those
of the decryptors. -/
theorem run_twins [HostEncoder] {c : Connector} (hprotocol : c.protocol = .http)
    {credential : Entries (Option Text)} (hsame : Connector.SameNames c.credential credential)
    {decrypt decrypt' : Option Decryptor} {settings : HttpSettings} {h : Host} {e e' : Executor}
    (hcreated : ofConnector c settings decrypt h = (.ok e, h))
    (hcreated' : ofConnector { c with credential := credential } settings decrypt' h = (.ok e', h))
    (hdecrypt : e.plain.isOk = e'.plain.isOk) (deeds : List Deed)
    (hkinds : (results (e, h) deeds).map kindOf = (results (e', h) deeds).map kindOf) :
    (deeds.foldl perform (e, h)).2.journal = (deeds.foldl perform (e', h)).2.journal ∧
      List.Forall₂ Sending.Alike (deeds.foldl perform (e, h)).2.sent
        (deeds.foldl perform (e', h)).2.sent ∧
      List.Forall₂ (Matches (Discloses e.plain e'.plain)) (results (e, h) deeds)
        (results (e', h) deeds) := by
  rw [ofConnector_http hprotocol] at hcreated
  rw [ofConnector_http (c := { c with credential := credential }) hprotocol] at hcreated'
  cases hcreated
  cases hcreated'
  obtain ⟨hhost, hresults⟩ := deeds_twin credential decrypt' rfl hsame
    hdecrypt deeds (Host.Alike.refl h) hkinds
  exact ⟨hhost.journal, hhost.sent, hresults⟩

/-- A connector that sends a credential value in a header. -/
def keyedDocument (value : Text) : Json :=
  .obj [("name", .str "c"), ("protocol", .str "http"), ("credential", .obj [("k", .str value)]),
    ("actions", .arr [.obj [("action_type", .str "PREDICT"), ("method", .str "GET"),
      ("url", .str "http://x/"),
      ("headers", .obj [("X-Key", .str (Template.spelling .credential "k"))])]])]

def keyed (value : Text) : Connector :=
  { trialConnector with
    credential := [("k", some value)]
    actions := [⟨.predict, "GET", "http://x/",
      some [("X-Key", some (Template.spelling .credential "k"))], .null⟩] }

def keyedExecutor (value : Text) : Executor := { trialExecutor with connector := keyed value }

theorem keyed_loaded (value : Text) : Connector.ofJson (keyedDocument value) = .ok (keyed value) := rfl

theorem keyed_created (value : Text) (h : Host) :
    ofConnector (keyed value) trialSettings none h = (.ok (keyedExecutor value), h) := rfl

theorem keyed_same (value value' : Text) :
    keyed value' = { keyed value with credential := (keyed value').credential } ∧
      Connector.SameNames (keyed value).credential (keyed value').credential :=
  ⟨rfl, rfl⟩

theorem keyed_plain (value value' : Text) :
    (keyedExecutor value).plain.isOk = (keyedExecutor value').plain.isOk := rfl

def answeringHost : Host := { Host.start 0 with exchanges := [plainAnswer 200 []] }

def keyedResults (value : Text) : List (Except Failure Response) :=
  results (keyedExecutor value, answeringHost) [.call (trialCall "http://x/")]

/-- A value that a header can hold is told to nobody. -/
theorem keyed_run_twins : (keyedResults "a").map kindOf = [none] ∧
    (keyedResults "b").map kindOf = [none] ∧
    List.Forall₂ (Matches (Discloses (keyedExecutor "a").plain (keyedExecutor "b").plain))
      (keyedResults "a") (keyedResults "b") := by
  have hkind : (keyedResults "a").map kindOf = [none] := by decide +kernel
  have hkind' : (keyedResults "b").map kindOf = [none] := by decide +kernel
  exact ⟨hkind, hkind', (run_twins rfl (keyed_same "a" "b").2 (keyed_created "a" answeringHost)
    (keyed_created "b" answeringHost) (keyed_plain "a" "b") [.call (trialCall "http://x/")]
    (hkind.trans hkind'.symm)).2.2⟩

theorem keyed_refused :
    ((keyedExecutor " a").call (trialCall "http://x/") answeringHost).1.map (fun _ => ()) =
      .error (.headerUnsafe .value " a") ∧
    ((keyedExecutor " b").call (trialCall "http://x/") answeringHost).1.map (fun _ => ()) =
      .error (.headerUnsafe .value " b") := by
  decide +kernel

/-- A value that no header can hold is quoted by the error of the call. -/
theorem refused_value_quoted : ¬∀ (doc doc' : Json) (c c' : Connector) (settings : HttpSettings)
    (h : Host) (e e' : Executor) (call : Call) (f f' : Failure),
    Connector.ofJson doc = .ok c → Connector.ofJson doc' = .ok c' → c.protocol = .http →
      c' = { c with credential := c'.credential } →
      Connector.SameNames c.credential c'.credential →
      ofConnector c settings none h = (.ok e, h) → ofConnector c' settings none h = (.ok e', h) →
      (e.call call h).1 = .error f → (e'.call call h).1 = .error f' → f.kind = f'.kind →
      f.message = f'.message := by
  intro hall
  have hkind (text text' : Text) : (Failure.headerUnsafe .value text).kind =
      (Failure.headerUnsafe .value text').kind := rfl
  have htold : (Failure.headerUnsafe .value " a").message ≠
      (Failure.headerUnsafe .value " b").message := by decide +kernel
  obtain ⟨htwin, hsame⟩ := keyed_same " a" " b"
  exact htold (hall _ _ _ _ trialSettings answeringHost _ _ (trialCall "http://x/") _ _
    (keyed_loaded " a") (keyed_loaded " b") rfl htwin hsame (keyed_created " a" answeringHost)
    (keyed_created " b" answeringHost) (eq_error_of_map keyed_refused.1)
    (eq_error_of_map keyed_refused.2) (hkind " a" " b"))

end Executor

end RemoteModel
