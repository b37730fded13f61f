import RemoteModel.Artifact.Prebuilt
import RemoteModel.Proofs.Artifact.Objects
import RemoteModel.Proofs.Calls.Single
import RemoteModel.Proofs.Calls.Unsent
import RemoteModel.Proofs.Http.Target

/-!
Where prebuilt models are fetched from. The configuration of a prebuilt model lies in the folder of the
format that is asked for, and the archive is fetched from that folder: the format that the configuration
declares has no part in it, and a connector comes before it.
-/

namespace RemoteModel

namespace ArtifactSettings

/-- The folder of a prebuilt model in one format. -/
def prebuiltFolder (s : ArtifactSettings) (model version format : Text) : Text :=
  s.repositoryText ++ "/" ++ model ++ "/" ++ version ++ "/" ++ format.lower ++ "/"

variable (s : ArtifactSettings) (model version format : Text)

theorem prebuiltConfigUrl_eq :
    s.prebuiltConfigUrl model version format = s.prebuiltFolder model version format ++ "config.json" := by
  simp only [prebuiltConfigUrl, prebuiltFolder, List.append_assoc]
  rfl

theorem prebuiltUrl_eq : ∃ archive,
    s.prebuiltUrl model version format = s.prebuiltFolder model version format ++ archive := by
  unfold prebuiltUrl prebuiltFolder
  dsimp only
  simp only [List.append_assoc]
  exact ⟨_, rfl⟩

theorem slashes_prebuiltFolder : 2 < (s.prebuiltFolder model version format).count (.scalar '/') := by
  have hslash : List.count (.scalar '/') (Text.ofString "/") = 1 := by decide
  simp only [prebuiltFolder, List.count_append, hslash]
  omega

theorem prebuiltUrl_injective {f g : ModelFormat}
    (hsame : s.prebuiltUrl model version f.name = s.prebuiltUrl model version g.name) : f = g := by
  obtain ⟨archive, hf⟩ := s.prebuiltUrl_eq model version f.name
  obtain ⟨archive', hg⟩ := s.prebuiltUrl_eq model version g.name
  rw [hf, hg] at hsame
  simp only [prebuiltFolder, List.append_assoc, List.append_cancel_left_eq] at hsame
  have htorch : ModelFormat.torchScript.name.lower = Text.ofString "torch_script" := by decide +kernel
  have honnx : ModelFormat.onnx.name.lower = Text.ofString "onnx" := by decide +kernel
  cases f <;> cases g
  · rfl
  · rw [htorch, honnx] at hsame
    exact absurd (List.cons.inj hsame).1 (by decide)
  · rw [htorch, honnx] at hsame
    exact absurd (List.cons.inj hsame).1 (by decide)
  · rfl

end ArtifactSettings

namespace ModelCache

open Host (Filed)

/-! ### Archives from the web -/

section

variable {c : ModelCache} {url : Text} {q : Request} {target : Path} {h : Host}

theorem receive_filed {σ : Type} [ByteSource σ] (source : σ) (target : Path) (h : Host) :
    Filed h (receive source target h).2 := by
  unfold receive
  split
  next => exact ⟨_, _, rfl⟩
  next =>
    dsimp only
    split <;> exact ⟨_, _, rfl⟩

theorem get_sent [HostEncoder] (hasked : Request.asked url = .ok q) (hserved : Target.isServed q.url = true) :
    (c.get url target h).2.sent =
        h.sent ++ [⟨c.session, q, true, connectTimeout, c.layout.downloadTimeout⟩] ∧
      (c.get url target h).2.fetched = h.fetched := by
  have hsent :=
    (Host.exchange_sent c.session true connectTimeout c.layout.downloadTimeout h hserved).sent
  have hfetched := Host.exchange_fetched c.session q true connectTimeout c.layout.downloadTimeout h
  have hprepared : (Request.prepare "GET" url [] none).bind Request.withUser = .ok q := hasked
  unfold get
  rw [hprepared]
  dsimp only
  split
  next hrun =>
    rw [hrun] at hsent hfetched
    exact ⟨hsent, hfetched⟩
  next a h₁ hrun =>
    rw [hrun] at hsent hfetched
    split
    next => exact ⟨hsent, hfetched⟩
    next =>
      obtain ⟨_, _, hreceived⟩ := receive_filed a.body target h₁
      dsimp only
      rw [hreceived]
      exact ⟨hsent, hfetched⟩

theorem asked_of_get [HostEncoder] (hgot : (c.get url target h).1 = .ok ()) :
    ∃ q, Request.asked url = .ok q ∧ Target.isServed q.url = true := by
  unfold get at hgot
  split at hgot
  next => cases hgot
  next q hasked =>
    refine ⟨q, hasked, ?_⟩
    cases hserved : Target.isServed q.url with
    | true => rfl
    | false =>
        rw [Host.exchange_unserved c.session true connectTimeout c.layout.downloadTimeout h hserved]
          at hgot
        cases hgot

theorem asked_of_staged [HostEncoder] {unreadable : Json.ReadError → Failure} {r : Registration}
    {task name : Text} {d : Json}
    (hstaged : (c.staged unreadable r task url name h).1 = .ok d) :
    ∃ q, Request.asked url = .ok q ∧ Target.isServed q.url = true := by
  unfold staged document at hstaged
  dsimp only at hstaged
  split at hstaged
  next => cases hstaged
  next hrun => exact asked_of_get (ok_of_mapError.mp (congrArg Prod.fst hrun))

end

def Refuses [HostEncoder] (c : ModelCache) (r : Registration) (f : Failure) : Prop :=
  ∀ task version h, (c.register r task version h).1 = .error f ∧
    (c.register r task version h).2.sent = h.sent ∧ (c.register r task version h).2.fetched = h.fetched

/-- A registration that downloads its archive from an address and asks for nothing else. -/
def Downloads [HostEncoder] (c : ModelCache) (r : Registration) (url : Text) : Prop :=
  ∃ q, Request.asked url = .ok q ∧ (∀ target h, c.fetch r target h = c.download url target h) ∧
    ∀ task version h,
      (c.register r task version h).2.sent =
          h.sent ++ [⟨c.session, q, true, connectTimeout, c.layout.downloadTimeout⟩] ∧
        (c.register r task version h).2.fetched = h.fetched

section

variable {c : ModelCache} {r : Registration} {url : Text} {q : Request}

/-- An address that can be sent to is taken apart once more, and then its scheme may be hidden. -/
theorem fetch_of_asked [HostEncoder] (hconnector : r.connector = none) (hurl : r.url = some url)
    (hasked : Request.asked url = .ok q) (hserved : Target.isServed q.url = true) (target : Path)
    (h : Host) :
    c.fetch r target h = match Address.parse url with
      | .error f => (.error f, h)
      | .ok _ =>
          if Address.hidesScheme url = true then (.error (.schemeUnsupported url), h)
          else c.download url target h := by
  obtain ⟨s, u, htrim, hs⟩ := Request.web_of_asked hasked hserved
  have hsome : url ≠ [] := by
    rintro rfl
    simp [Text.trimLeft, Target.webUrl] at htrim
  unfold fetch
  split
  next hother => cases hconnector.symm.trans hother
  next hnone => cases hurl.symm.trans hnone
  next hempty => exact absurd (Option.some.inj (hurl.symm.trans hempty)) hsome
  next url' _ _ hother =>
    obtain rfl := Option.some.inj (hurl.symm.trans hother)
    cases hparse : Address.parse url with
    | error f => rfl
    | ok a =>
        have hscheme := Address.scheme_of_web htrim hs hparse
        dsimp only
        by_cases hhidden : Address.hidesScheme url = true
        · rw [if_pos hhidden] at hscheme ⊢
          rw [hscheme]
          rfl
        · rw [if_neg hhidden] at hscheme ⊢
          rw [if_neg, if_neg, if_pos]
          · rw [hscheme]
            rcases hs with hs | hs <;> rw [hs] <;> rfl
          · rw [hscheme]
            rcases hs with hs | hs <;> rw [hs] <;> decide
          · rw [hscheme]
            rcases hs with hs | hs <;> rw [hs] <;> decide

theorem refuses_of_fetch [HostEncoder] {f : Failure}
    (hfetch : ∀ target h, c.fetch r target h = (.error f, h)) :
    c.Refuses r f := by
  intro task version h
  obtain ⟨⟨_, _, hfiled⟩, hfails⟩ := c.register_of_fetch r task version h (hfetch _ _)
  refine ⟨hfails f rfl, ?_⟩
  rw [hfiled]
  exact ⟨rfl, rfl⟩

theorem downloads_of_fetch [HostEncoder] (hasked : Request.asked url = .ok q)
    (hserved : Target.isServed q.url = true)
    (hfetch : ∀ target h, c.fetch r target h = c.download url target h) : c.Downloads r url := by
  refine ⟨q, hasked, hfetch, fun task version h => ?_⟩
  obtain ⟨⟨_, _, hfiled⟩, -⟩ := c.register_of_fetch r task version h (hfetch _ _)
  rw [hfiled]
  exact get_sent hasked hserved

end

/-! ### Prebuilt models -/

variable {c : ModelCache} {r r' : Registration} {format : ModelFormat} {url task : Text}

theorem configured_eq_ok {config : Entries Json} (hconfigured : configured r format url config = .ok r') :
    ∃ declared, formatIn config format = .ok declared ∧
      r' = { r with url := some url, format := some declared, config := r'.config, hash := r'.hash } := by
  obtain ⟨declared, hdeclared, hconfigured⟩ := ok_of_bind hconfigured
  obtain ⟨model, _, hconfigured⟩ := ok_of_bind hconfigured
  cases hconfigured
  exact ⟨declared, hdeclared, rfl⟩

theorem prebuilt_eq_ok [HostEncoder] {h h' : Host} (hprebuilt : c.prebuilt r task h = (.ok r', h')) :
    ∃ format config, r.format = some format ∧
      c.staged .configNotJson r task (c.layout.prebuiltConfigUrl r.name r.version format.name)
        configName h = (.ok (.obj config), h') ∧
      configured r format (c.layout.prebuiltUrl r.name r.version format.name) config = .ok r' := by
  unfold prebuilt at hprebuilt
  split at hprebuilt
  next => cases hprebuilt
  next => cases hprebuilt
  next => cases hprebuilt
  next format _ _ hformat =>
    dsimp only at hprebuilt
    split at hprebuilt
    next => cases hprebuilt
    next entry entries h₁ hrun =>
      obtain ⟨hconfigured, rfl⟩ := Prod.mk.inj hprebuilt
      exact ⟨format, entry :: entries, hformat, hrun, hconfigured⟩
    next => cases hprebuilt

/-- What a registration becomes once the configuration of its prebuilt model has been read. Its address is
that of the archive in the format asked for, which is its own format exactly if the configuration declares
no other one; apart from hash and configuration it keeps the rest. A connector comes before the address.
Without one the archive is downloaded from the address and nothing else is asked for, unless the address
is no address to one who takes it apart, or begins with blanks that hide its scheme. -/
theorem prebuilt_source [HostEncoder] (c : ModelCache) {r r' : Registration} {task : Text} {h h' : Host}
    (hprebuilt : c.prebuilt r task h = (.ok r', h')) :
    ∃ format declared config url, r.format = some format ∧
      (c.staged .configNotJson r task (c.layout.prebuiltConfigUrl r.name r.version format.name)
        configName h).1 = .ok (.obj config) ∧
      formatIn config format = .ok declared ∧
      r' = { r with url := some url, format := some declared, config := r'.config, hash := r'.hash } ∧
      (∀ g : ModelFormat, url = c.layout.prebuiltUrl r'.name r'.version g.name ↔ g = format) ∧
      (∀ connector, r'.connector = some connector → ∀ target k,
        c.fetch r' target k = c.downloadThrough connector target k) ∧
      (r'.connector = none →
        (∀ f, Address.parse url = .error f → c.Refuses r' f) ∧
        ∀ a, Address.parse url = .ok a →
          (Address.hidesScheme url = true → c.Refuses r' (.schemeUnsupported url)) ∧
          (Address.hidesScheme url = false → c.Downloads r' url)) := by
  obtain ⟨format, config, hformat, hstaged, hconfigured⟩ := prebuilt_eq_ok hprebuilt
  obtain ⟨declared, hdeclared, hkept⟩ := configured_eq_ok hconfigured
  have hname : r'.name = r.name := by rw [hkept]
  have hversion : r'.version = r.version := by rw [hkept]
  have hurl : r'.url = some (c.layout.prebuiltUrl r.name r.version format.name) := by rw [hkept]
  -- The configuration was asked for, and the archive lies beside it.
  obtain ⟨p, hasked, hserved⟩ := asked_of_staged (congrArg Prod.fst hstaged)
  obtain ⟨archive, harchive⟩ := c.layout.prebuiltUrl_eq r.name r.version format.name
  rw [c.layout.prebuiltConfigUrl_eq] at hasked
  obtain ⟨url, hbeside, hserved'⟩ := Request.asked_beside (c.layout.slashes_prebuiltFolder _ _ _) hasked
    hserved archive
  rw [← harchive] at hbeside
  refine ⟨format, declared, config, _, hformat, congrArg Prod.fst hstaged, hdeclared, hkept,
    fun g => ?_, fun connector hconnector target k => ?_,
    fun hconnector => ⟨fun f hparse => ?_, fun a hparse => ⟨fun hhidden => ?_, fun hshown => ?_⟩⟩⟩
  · rw [hname, hversion]
    constructor
    · exact fun hsame => (c.layout.prebuiltUrl_injective _ _ hsame).symm
    · rintro rfl
      rfl
  · unfold fetch
    rw [hconnector]
  · refine refuses_of_fetch fun target k => ?_
    rw [fetch_of_asked hconnector hurl hbeside hserved', hparse]
  · refine refuses_of_fetch fun target k => ?_
    rw [fetch_of_asked hconnector hurl hbeside hserved', hparse]
    exact if_pos hhidden
  · refine downloads_of_fetch hbeside hserved' fun target k => ?_
    rw [fetch_of_asked hconnector hurl hbeside hserved', hparse]
    exact if_neg (by simp [hshown])

/-- The endpoint of a repository, the connector of a registration, and the configuration that the
repository answers with. -/
structure Stocked where
  endpoint : Text
  connector : Option Connector
  config : Entries Json

namespace Stocked

def cache (s : Stocked) : ModelCache :=
  { smallCache with layout := { smallLayout with repositoryEndpoint := some s.endpoint } }

def before (s : Stocked) : Registration := { smallRegistration "none" "1" with connector := s.connector }

def host (s : Stocked) : Host :=
  { Host.start 0 with
    exchanges := [Executor.plainAnswer 200 (Utf8.encodeLoose (Json.obj s.config).render)] }

def after [HostEncoder] (s : Stocked) : Registration :=
  (s.cache.prebuilt s.before "t" s.host).1.toOption.getD s.before

/-- What is asked for when the registration that was returned is registered. -/
def requests [HostEncoder] (s : Stocked) : List Text :=
  (s.cache.register s.after "t" none (Host.start 0)).2.sent.map fun sending => sending.request.url

def Returns [HostEncoder] (s : Stocked) : Prop :=
  ∃ h', s.cache.prebuilt s.before "t" s.host = (.ok s.after, h')

theorem returns_of_isOk [HostEncoder] {s : Stocked}
    (hok : (s.cache.prebuilt s.before "t" s.host).1.isOk = true) :
    s.Returns := by
  obtain ⟨r', hresult⟩ := ok_of_isOk hok
  refine ⟨(s.cache.prebuilt s.before "t" s.host).2, Prod.ext ?_ rfl⟩
  rw [after, hresult]
  rfl

def plain : Stocked := ⟨"http://h", none, [("model_format", .str "torch_script")]⟩

def relabelled : Stocked := ⟨"http://h", none, [("model_format", .str "onnx")]⟩

def rerouted : Stocked :=
  { plain with
    connector := some { Executor.trialConnector with
      actions := [⟨.download, "GET", "http://x/", none, .null⟩] } }

/-- The endpoint begins with a blank that is not in ASCII. -/
def hidden : Stocked := { plain with endpoint := "\u00a0http://h" }

end Stocked

open Stocked

def plainUrl : Text := "http://h/m/1/torch_script/m-1-torch_script.zip"

theorem plain_source : plain.after.url = some plainUrl ∧ plain.cache.Downloads plain.after plainUrl := by
  obtain ⟨hok, hurl⟩ : (plain.cache.prebuilt plain.before "t" plain.host).1.isOk = true ∧
      plain.after.url = some plainUrl := by decide +kernel
  obtain ⟨h', hrun⟩ := returns_of_isOk hok
  obtain ⟨format, declared, config, url, -, -, -, hkept, -, -, hdownloads⟩ :=
    prebuilt_source plain.cache hrun
  have hsame : plain.after.url = some url := by rw [hkept]
  obtain rfl := Option.some.inj (hsame.symm.trans hurl)
  obtain ⟨a, hparse⟩ : ∃ a, Address.parse plainUrl = .ok a := ok_of_isOk (by decide +kernel)
  exact ⟨hurl, ((hdownloads (by rw [hkept]; rfl)).2 a hparse).2 (by decide +kernel)⟩

/-- Format and address part when the configuration declares another format; the archive is not fetched
from the address when there is a connector, and not at all when the scheme is hidden. -/
theorem stocked_sources_part :
    (relabelled.Returns ∧ relabelled.after.format = some .onnx ∧
      relabelled.after.url ≠ some (relabelled.cache.layout.prebuiltUrl relabelled.after.name
        relabelled.after.version ModelFormat.onnx.name)) ∧
    (rerouted.Returns ∧ rerouted.after.url = some plainUrl ∧
      rerouted.requests = [Text.ofString "http://x/"]) ∧
    (hidden.Returns ∧ hidden.requests = []) := by
  refine ⟨?_, ?_, ?_⟩
  · refine And.imp_left returns_of_isOk ?_
    decide +kernel
  · refine And.imp_left returns_of_isOk ?_
    decide +kernel
  · refine And.imp_left returns_of_isOk ?_
    decide +kernel

end ModelCache

end RemoteModel
