import RemoteModel.Executor
import RemoteModel.Proofs.Auth.Settings
import RemoteModel.Proofs.Connector.Credential
import RemoteModel.Proofs.Connector.Document

/-!
Creating executors. A connector that was loaded holds all that its protocol signs with, so its executor
comes about wherever it is created, and the host is asked for nothing but to log.
-/

namespace RemoteModel

namespace Connector

/-- A table holds a value under a name, and the value is not empty. -/
structure Stores (es : Entries (Option Text)) (name value : Text) : Prop where
  there : es.get? name = some (some value)
  filled : value ≠ []

theorem stores_of_holds {es : Entries (Option Text)} {name : Text} (h : holds es name = true) :
    ∃ value, Stores es name value := by
  unfold holds at h
  split at h
  next => cases h
  next => cases h
  next value hfilled hvalue => exact ⟨value, Option.join_eq_some_iff.mp hvalue, hfilled⟩

theorem holds_of_checkSigning {parameters credential : Entries (Option Text)}
    (h : checkSigning parameters credential = .ok ()) :
    holds credential "access_key" = true ∧ holds credential "secret_key" = true ∧
      holds parameters "service_name" = true ∧ holds parameters "region" = true := by
  unfold checkSigning at h
  cases haccess : holds credential "access_key" <;> cases hsecret : holds credential "secret_key" <;>
    cases hservice : holds parameters "service_name" <;> cases hregion : holds parameters "region" <;>
    simp_all

theorem require_eq {es : Entries Text} {name value : Text} (h : es.get? name = some value) :
    require es name = .ok value := by
  unfold require
  rw [h]

/-- What signs the calls of a connector: nothing, the key that it stores, or the signer of its
descriptor, which waits for the first call. -/
inductive Equipped (c : Connector) : RequestAuth → Prop
  | unsigned : c.protocol = .http → Equipped c .unsigned
  | key {k : AwsCredentials} : c.protocol = .awsSigV4 →
      Stores c.credential "access_key" k.accessKey → Stores c.credential "secret_key" k.secretKey →
      Stores c.parameters "service_name" k.serviceName → Stores c.parameters "region" k.region →
      Equipped c (.key k)
  | lazy {d : AuthDescriptor} {s : LazySigner} : c.protocol.isOci = true → c.auth = some d →
      s.Waits d → Equipped c (.lazy s)

theorem awsCredentials_ok {c : Connector} (hprotocol : c.protocol = .awsSigV4)
    (hcheck : checkSigning c.parameters c.credential = .ok ()) :
    ∃ k, c.awsCredentials .ok = .ok k ∧ Equipped c (.key k) := by
  obtain ⟨haccess, hsecret, hservice, hregion⟩ := holds_of_checkSigning hcheck
  obtain ⟨access, haccess⟩ := stores_of_holds haccess
  obtain ⟨secret, hsecret⟩ := stores_of_holds hsecret
  obtain ⟨service, hservice⟩ := stores_of_holds hservice
  obtain ⟨region, hregion⟩ := stores_of_holds hregion
  obtain ⟨plain, hplain⟩ := decryptAll_plain c.credential
  have hcredential {name value : Text} (h : Stores c.credential name value) :
      require plain name = .ok value := by
    obtain ⟨_, hvalue, hget⟩ := get?_decryptAll hplain h.there
    cases hvalue
    exact require_eq hget
  have hparameter {name value : Text} (h : Stores c.parameters name value) :
      require (c.parameters.mapValues (·.getD [])) name = .ok value := by
    refine require_eq ?_
    rw [Entries.get?_mapValues, h.there]
    rfl
  refine ⟨⟨access, secret, service, region, plain.get? "session_token"⟩, ?_,
    .key hprotocol haccess hsecret hservice hregion⟩
  unfold awsCredentials plainCredential
  rw [hplain]
  simp only [hprotocol, ne_eq, not_true_eq_false, if_false, bind, Except.bind, pure, Except.pure,
    hcredential haccess, hcredential hsecret, hparameter hservice, hparameter hregion]

theorem checkSigning_of_loaded {c : Connector} (hprotocol : c.protocol = .awsSigV4)
    (hauth : authorize c.protocol c.parameters c.credential = .ok c.auth) :
    checkSigning c.parameters c.credential = .ok () := by
  rw [hprotocol] at hauth
  unfold authorize at hauth
  dsimp only at hauth
  cases hcheck : checkSigning c.parameters c.credential with
  | error f =>
      rw [hcheck] at hauth
      cases hauth
  | ok => rfl

theorem descriptor_of_loaded {c : Connector} (hprotocol : c.protocol.isOci = true)
    (hauth : authorize c.protocol c.parameters c.credential = .ok c.auth) :
    ∃ d, c.auth = some d ∧
      AuthDescriptor.ofSettings (some (resolveSettings c.jsonParameters c.jsonCredential)) = .ok d := by
  unfold authorize at hauth
  split at hauth
  next h => rw [h] at hprotocol; cases hprotocol
  next h => rw [h] at hprotocol; cases hprotocol
  all_goals
    cases hread : AuthDescriptor.ofSettings (some (resolveSettings c.jsonParameters c.jsonCredential)) with
    | error f =>
        unfold jsonParameters jsonCredential at hread
        rw [hread] at hauth
        cases hauth
    | ok d =>
        unfold jsonParameters jsonCredential at hread
        rw [hread] at hauth
        exact ⟨d, (Except.ok.inj hauth).symm, rfl⟩

end Connector

namespace Executor

theorem log_nil (h : Host) : HasJournal.log [] h = h := by
  change { h with journal := { h.journal with records := h.journal.records ++ [] } } = h
  rw [List.append_nil]

theorem authFor_waits {c : Connector} (hprotocol : c.protocol.isOci = true)
    (hauth : Connector.authorize c.protocol c.parameters c.credential = .ok c.auth) :
    ∃ auth records, c.Equipped auth ∧
      ∀ h, authFor .oci c none h = (.ok auth, HasJournal.log records h) := by
  obtain ⟨d, hd, hread⟩ := Connector.descriptor_of_loaded hprotocol hauth
  obtain ⟨s, hwaits⟩ := LazySigner.waits_of_ofSettings hread
  refine ⟨.lazy s, [LazySigner.announcement (.str d.type.name)], .lazy hprotocol hd hwaits,
    fun h => ?_⟩
  unfold authFor Connector.authDescriptor LazySigner.build
  rw [hd]
  dsimp only
  rw [hwaits.ofDescriptor]
  rfl

theorem authFor_loaded {c : Connector}
    (hauth : Connector.authorize c.protocol c.parameters c.credential = .ok c.auth) :
    ∃ auth records, c.Equipped auth ∧
      ∀ h, authFor (.ofProtocol c.protocol) c none h = (.ok auth, HasJournal.log records h) := by
  cases hprotocol : c.protocol with
  | http => exact ⟨.unsigned, [], .unsigned hprotocol, fun h => by rw [log_nil]; rfl⟩
  | awsSigV4 =>
      obtain ⟨k, hkey, hequipped⟩ :=
        Connector.awsCredentials_ok hprotocol (Connector.checkSigning_of_loaded hprotocol hauth)
      refine ⟨.key k, [], hequipped, fun h => ?_⟩
      rw [log_nil]
      change ((c.awsCredentials .ok).map RequestAuth.key, h) = _
      rw [hkey]
      rfl
  | ociSigV1 => exact authFor_waits (by rw [hprotocol]; rfl) hauth
  | ociGenAi => exact authFor_waits (by rw [hprotocol]; rfl) hauth

theorem supports_ofProtocol (p : Protocol) : p ∈ (ExecutorKind.ofProtocol p).protocols := by
  cases p <;> decide

/-- The executor of a connector that was loaded. It is the same wherever it is created, so no file was
looked into, and the host is as it was but for what was logged: nothing was sent and no signer was built.
It is of the kind for the protocol, and it signs with what the connector holds. -/
theorem created_of_loaded {doc : Json} {c : Connector} (hload : Connector.ofJson doc = .ok c)
    (settings : HttpSettings) :
    ∃ e records, (∀ h, ofConnector c settings none h = (.ok e, HasJournal.log records h)) ∧
      e.connector = c ∧ e.kind = .ofProtocol c.protocol ∧ c.protocol ∈ e.kind.protocols ∧
      c.Equipped e.auth ∧
      e.breaker = .create (breakerName c) settings.breakerThreshold settings.breakerTimeout := by
  obtain ⟨auth, records, hequipped, hrun⟩ := authFor_loaded (Connector.read_of_ofJson hload).auth
  have hsupports := supports_ofProtocol c.protocol
  refine ⟨⟨.ofProtocol c.protocol, c, settings, none,
    .create (breakerName c) settings.breakerThreshold settings.breakerTimeout, auth⟩, records,
    fun h => ?_, rfl, rfl, hsupports, hequipped, rfl⟩
  unfold ofConnector create
  rw [if_neg (by simpa using hsupports), hrun h]

/-- A connector for a user principal whose fields are divided between its two tables. -/
def dividedDocument : Json :=
  .obj [("name", .str "c"), ("protocol", .str "oci_sigv1"),
    ("parameters", .obj [("auth_type", .str " user_principal"), ("tenant_id", .str "t"),
      ("region", .null)]),
    ("credential", .obj [("user_id", .str "u"), ("fingerprint", .str "f"),
      ("pemfile_path", .str "k.pem"), ("region", .str "r"), ("tenant_id", .str "")])]

def divided : Connector where
  name := .str "c"
  protocol := .ociSigV1
  description := .null
  version := .null
  parameters := [("auth_type", some " user_principal"), ("tenant_id", some "t"), ("region", none)]
  credential := [("user_id", some "u"), ("fingerprint", some "f"), ("pemfile_path", some "k.pem"),
    ("region", some "r"), ("tenant_id", some "")]
  actions := []
  backendRoles := []
  accessMode := .null
  owner := .null
  auth := some ⟨.userPrincipal, .str "t", .str "u", .str "r", .str "f", .str "k.pem"⟩

theorem divided_created :
    Connector.ofJson dividedDocument = .ok divided ∧
      ∃ e records, (∀ h, ofConnector divided .standard none h = (.ok e, HasJournal.log records h)) ∧
        e.kind = .oci ∧ divided.Equipped e.auth := by
  have hload : Connector.ofJson dividedDocument = .ok divided := by decide +kernel
  obtain ⟨e, records, hrun, _, hkind, _, hequipped, _⟩ := created_of_loaded hload .standard
  exact ⟨hload, e, records, hrun, hkind, hequipped⟩

end Executor

end RemoteModel
