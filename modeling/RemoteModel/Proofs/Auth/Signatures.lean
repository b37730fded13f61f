import RemoteModel.Proofs.Auth.Signing
import RemoteModel.Proofs.Calendar
import RemoteModel.Proofs.Files.Path
import RemoteModel.Proofs.Results

/-!
What a signature depends on. The order of the headers, the case of their names, the headers that every hop
may rewrite and those that a signer set before do not count.
-/

namespace RemoteModel

theorem Bytes.isWellFormed_hex (bytes : Bytes) : (Bytes.hex bytes).isWellFormed = true := by
  refine Text.isWellFormed_iff.mpr fun r hr => ?_
  obtain ⟨b, -, hr⟩ := List.mem_flatMap.mp hr
  exact Text.isWellFormed_iff.mp (Text.isWellFormed_hex 2 b.toNat) r hr

namespace KeySignature

open Headers

variable {c : AwsCredentials} {m : Moment} {r s : Request}

theorem signedHeaders_congr {h h' : Headers} (url : Text) (hsame : ∀ name, h.get? name = h'.get? name) :
    signedHeaders url h = signedHeaders url h' := by
  have hgiven (g : Headers) : (g.entries.filterMap fun e =>
      if unsignedHeaders.contains e.1.lower then none else some (e.1.lower, e.2)) =
        g.small.filter fun e => !unsignedHeaders.contains e.1 := by
    rw [Headers.small, List.filter_map, ← List.filterMap_eq_map, List.filterMap_filter]
    refine List.filterMap_congr fun e _ => ?_
    cases hname : unsignedHeaders.contains e.1.lower <;> simp only [Function.comp_apply, hname] <;> rfl
  have hperm := (small_perm hsame).filter fun e => !unsignedHeaders.contains e.1
  have hnodup : ((h.small.filter fun e => !unsignedHeaders.contains e.1).map Prod.fst).Nodup :=
    h.nodup_small.sublist (List.filter_sublist.map _)
  unfold signedHeaders
  dsimp only
  rw [hgiven, hgiven]
  generalize h.small.filter (fun e => !unsignedHeaders.contains e.1) = given at hperm hnodup ⊢
  generalize h'.small.filter (fun e => !unsignedHeaders.contains e.1) = given' at hperm ⊢
  have hhas (name : Text) : Entries.has given name = Entries.has given' name := by
    rw [Bool.eq_iff_iff, Entries.has_iff, Entries.has_iff, (hperm.map Prod.fst).mem_iff]
  rw [← hhas]
  cases hhost : Entries.has given "host" with
  | true => exact congrArg Except.ok (Entries.mergeSort_perm_eq hperm hnodup)
  | false =>
      cases hostOf url with
      | error f => rfl
      | ok host =>
          refine congrArg Except.ok (Entries.mergeSort_perm_eq (hperm.append_right _) ?_)
          have habsent : Text.ofString "host" ∉ given.map Prod.fst := by
            rw [← Entries.has_iff, hhost]
            exact Bool.false_ne_true
          rw [List.map_append, List.nodup_append]
          refine ⟨hnodup, List.nodup_singleton _, ?_⟩
          rintro name hname _ hhost' rfl
          obtain rfl : name = Text.ofString "host" := List.mem_singleton.mp hhost'
          exact habsent hname

/-- Two requests that go into a signature alike. -/
structure Alike (r s : Request) : Prop where
  method : r.method = s.method
  url : r.url = s.url
  body : r.body = s.body
  lookups : ∀ name, r.headers.get? name = s.headers.get? name

theorem authorizationOf_congr (c : AwsCredentials) (m : Moment) (hsame : Alike r s) :
    authorizationOf c m r = authorizationOf c m s := by
  have hsigned : signedHeaders r.url r.headers = signedHeaders s.url s.headers :=
    hsame.url ▸ signedHeaders_congr r.url hsame.lookups
  have hcanonical : canonicalRequest r = canonicalRequest s := by
    unfold canonicalRequest bodyHash
    rw [hsigned, hsame.url, hsame.method, hsame.body, hsame.lookups]
  unfold authorizationOf
  rw [hcanonical, hsigned]

/-- Two requests that differ in nothing but headers which a signature drops or sets anew. -/
structure AlikeToSign (c : AwsCredentials) (r s : Request) : Prop where
  method : r.method = s.method
  url : r.url = s.url
  body : r.body = s.body
  dated : r.headers.has date = s.headers.has date
  lookups : ∀ name, stays c name.lower = true → r.headers.get? name = s.headers.get? name

theorem prepared_alike (m : Moment) (hsame : AlikeToSign c r s) :
    Alike (prepared c m r) (prepared c m s) := by
  refine ⟨hsame.method, hsame.url, hsame.body, fun name => ?_⟩
  have hlookup (r : Request) : (prepared c m r).headers.get? name =
      ((if stays c name.lower then r.headers.entries.find? (fun e => e.1.lower = name.lower) else none).or
        ((marks c m (r.headers.has date)).find? fun e => e.1.lower = name.lower)).map Prod.snd := by
    have hfind := congrArg (List.find? fun e => decide (e.1.lower = name.lower)) (prepared_entries c m r)
    rw [List.find?_append] at hfind
    rw [Headers.get?, hfind, Headers.filter, find?_filter]
  rw [hlookup, hlookup, hsame.dated, Option.map_or, Option.map_or]
  cases hstays : stays c name.lower with
  | false => rfl
  | true => exact congrArg (Option.or · _) (hsame.lookups name hstays)

theorem sign_alike (now : Int) (hsame : AlikeToSign c r s) :
    ∃ signature : Except Failure Text,
      sign c now r = signature.map (signedWith c (.ofSeconds (now.fdiv 1000000)) · r) ∧
      sign c now s = signature.map (signedWith c (.ofSeconds (now.fdiv 1000000)) · s) := by
  refine ⟨_, sign_eq c now r, ?_⟩
  rw [sign_eq, authorizationOf_congr c _ (prepared_alike _ hsame)]


/-- Whatever has a canonical form that can be written gets a signature. -/
theorem authorizationOf_of_canonical (m : Moment) {canonical : Text}
    (hcanonical : canonicalRequest r = .ok canonical) (hformed : canonical.isWellFormed = true)
    (hsecret : c.secretKey.isWellFormed = true) (hregion : c.region.isWellFormed = true)
    (hservice : c.serviceName.isWellFormed = true) : ∃ sig, authorizationOf c m r = .ok sig := by
  obtain ⟨bytes, hbytes⟩ := Text.encode_eq_ok_iff.mpr hformed
  obtain ⟨signed, hsigned⟩ : ∃ signed, signedHeaders r.url r.headers = .ok signed := by
    obtain ⟨a, -, hrest⟩ := ok_of_bind hcanonical
    obtain ⟨path, -, hrest⟩ := ok_of_bind hrest
    obtain ⟨signed, hsigned, -⟩ := ok_of_bind hrest
    exact ⟨signed, hsigned⟩
  obtain ⟨key, hkey⟩ : ∃ key, signingKey c (m.dateText "") = .ok key := by
    obtain ⟨secret, hsecret⟩ := Text.encode_eq_ok_iff.mpr
      (show Text.isWellFormed ("AWS4" ++ c.secretKey) = true by
        rw [Text.isWellFormed_append, Text.isWellFormed_ofString, hsecret]
        rfl)
    obtain ⟨region, hregion⟩ := Text.encode_eq_ok_iff.mpr hregion
    obtain ⟨service, hservice⟩ := Text.encode_eq_ok_iff.mpr hservice
    rw [signingKey, hsecret, hregion, hservice]
    exact ⟨_, rfl⟩
  have hscope : (scope c (m.dateText "")).isWellFormed = true := by
    refine Text.isWellFormed_join (Text.isWellFormed_ofString "/") ?_
    have hday := m.isWellFormed_dateText (Text.isWellFormed_ofString "")
    simp [hday, hregion, hservice, Text.isWellFormed_ofString]
  have hparts : ∀ part ∈ [Text.ofString "AWS4-HMAC-SHA256", m.basicText, scope c (m.dateText ""),
      Sha256.hexHash bytes], part.isWellFormed = true := by
    simp [Text.isWellFormed_ofString, m.isWellFormed_basicText, hscope, Sha256.hexHash,
      Bytes.isWellFormed_hex]
  obtain ⟨toSign, htoSign⟩ := Text.encode_eq_ok_iff.mpr
    (Text.isWellFormed_join (Text.isWellFormed_ofString "\n") hparts)
  unfold authorizationOf
  dsimp only
  rw [hcanonical, hsigned, hkey]
  dsimp only [bind, Except.bind]
  rw [hbytes]
  dsimp only [Except.bind]
  rw [htoSign]
  exact ⟨_, rfl⟩

/-! ### Signing twice, and signing alike -/

/-- Names, in small letters, of the headers that the scheme uses. -/
def schemeNames : List Text := ["authorization", "x-amz-date", "x-amz-security-token", "date"]

theorem mem_schemeNames {key : Text} (hkey : isOwn c key = true) : schemeNames.contains key = true := by
  obtain ⟨hauthorization, hdate, hstamp, htoken⟩ := small_names
  rw [isOwn, hauthorization, hdate, hstamp, htoken] at hkey
  simp only [Bool.or_eq_true, Bool.and_eq_true, decide_eq_true_eq] at hkey
  rcases hkey with ((rfl | rfl) | rfl) | ⟨-, rfl⟩ <;> simp [schemeNames]

theorem ok_of_sign {now : Int} {r' : Request} (hsign : sign c now r = .ok r') :
    ∃ sig, r' = signedWith c (.ofSeconds (now.fdiv 1000000)) sig r := by
  rw [sign_eq] at hsign
  generalize authorizationOf c (.ofSeconds (now.fdiv 1000000)) _ = signature at hsign
  cases signature with
  | error f => cases hsign
  | ok sig =>
      cases hsign
      exact ⟨sig, rfl⟩

theorem get?_authorization (c : AwsCredentials) (m : Moment) (sig : Text) (r : Request) :
    (signedWith c m sig r).headers.get? authorization = some sig :=
  have hmem : (authorization, sig) ∈ setBy c m (r.headers.has date) sig := by simp [setBy]
  get?_putAll_mem (nodup_setBy ..) hmem

theorem filter_signedWith {q : Text → Bool} (hq : ∀ key ∈ schemeNames, q key = false) (c : AwsCredentials)
    (m : Moment) (sig : Text) (r : Request) :
    ((signedWith c m sig r).headers.filter fun n => q n.lower) = r.headers.filter fun n => q n.lower := by
  refine filter_putAll fun e he => hq _ ?_
  exact List.contains_iff_mem.mp (mem_schemeNames (isOwn_of_mem_setBy he))

theorem signed_twice {now : Int} {r' : Request} (hsign : sign c now r = .ok r') :
    (r'.method = r.method ∧ r'.url = r.url ∧ r'.body = r.body) ∧
      (keysOf r'.headers.entries).Nodup ∧
      (r'.headers.filter fun n => !schemeNames.contains n.lower) =
        (r.headers.filter fun n => !schemeNames.contains n.lower) ∧
      sign c now r' = .ok r' ∧ (∀ later, sign c later r' = sign c later r) ∧
      ∀ s, AlikeToSign c r s → ∃ s', sign c now s = .ok s' ∧
        s'.headers.get? authorization = r'.headers.get? authorization := by
  have hagain := sign_of_sign hsign
  obtain ⟨sig, rfl⟩ := ok_of_sign hsign
  refine ⟨⟨rfl, rfl, rfl⟩, Headers.nodup _, ?_, (hagain now).trans hsign, hagain, fun s hsame => ?_⟩
  · exact filter_signedWith (q := fun key => !schemeNames.contains key) (by decide) c _ sig r
  · obtain ⟨signature, hr, hs⟩ := sign_alike now hsame
    rw [hr] at hsign
    cases signature with
    | error f => cases hsign
    | ok sig' =>
        rw [Except.map, Except.ok.injEq] at hsign
        refine ⟨_, hs, ?_⟩
        rw [← hsign, get?_authorization, get?_authorization]

/-- A key with a token. -/
def smallKey : AwsCredentials := ⟨"AK", "secret", "bedrock", "us-east-1", some "tok"⟩

def bareRequest : Request :=
  ⟨"POST", "https://h/x", .ofEntries [("Accept", "*/*"), ("Host", "h"), ("User-Agent", "a")],
    some [0x7b, 0x7d]⟩

/-- A request that carries what is left of an older signature. -/
def smallRequest : Request :=
  { bareRequest with
    headers := bareRequest.headers.putAll [("Authorization", "old"), ("x-amz-date", "old")] }

def smallSigned : Entries Text :=
  [("accept", "*/*"), ("host", "h"), ("x-amz-date", "19700101T000000Z"), ("x-amz-security-token", "tok")]

theorem signedHeaders_small :
    signedHeaders smallRequest.url (prepared smallKey (.ofSeconds 0) smallRequest).headers =
      .ok smallSigned := by
  have hgiven : ((prepared smallKey (.ofSeconds 0) smallRequest).headers.entries.filterMap fun e =>
      if unsignedHeaders.contains e.1.lower then none else some (e.1.lower, e.2)) = smallSigned := by
    decide +kernel
  have hhost : Entries.has smallSigned "host" = true := by decide
  have hsorted : smallSigned.Pairwise fun a b => Text.le a.1 b.1 = true := by decide +kernel
  unfold signedHeaders
  dsimp only
  rw [hgiven, if_pos hhost]
  exact congrArg Except.ok (List.mergeSort_of_pairwise hsorted)

theorem canonicalRequest_small :
    ∃ canonical, canonicalRequest (prepared smallKey (.ofSeconds 0) smallRequest) = .ok canonical ∧
      canonical.isWellFormed = true := by
  have hparse : Address.parse smallRequest.url = .ok ⟨"https", "h", "/x", [], []⟩ := by decide +kernel
  have hpath : canonicalPath "/x" = .ok "/x" := by decide +kernel
  have hlines : headerLines smallSigned = .ok
      "accept:*/*\nhost:h\nx-amz-date:19700101T000000Z\nx-amz-security-token:tok\n" := by decide +kernel
  have hnames : (nameList smallSigned).isWellFormed = true := by
    have hsorted : (smallSigned.map fun e => e.1.trim).Pairwise fun a b => Text.le a b = true := by
      decide +kernel
    rw [nameList, List.mergeSort_of_pairwise hsorted]
    decide +kernel
  have hbody : (bodyHash (prepared smallKey (.ofSeconds 0) smallRequest)).isWellFormed = true := by
    have hnone : (prepared smallKey (.ofSeconds 0) smallRequest).headers.get? bodyDigest = none := by
      decide +kernel
    rw [bodyHash, hnone]
    exact Bytes.isWellFormed_hex _
  have hformed : ∀ part ∈ [Text.upper "POST", Text.ofString "/x", canonicalQuery [],
      Text.ofString "accept:*/*\nhost:h\nx-amz-date:19700101T000000Z\nx-amz-security-token:tok\n",
      nameList smallSigned, bodyHash (prepared smallKey (.ofSeconds 0) smallRequest)],
      part.isWellFormed = true := by
    have hmethod : (Text.upper "POST").isWellFormed = true := by decide
    simp [hmethod, hnames, hbody, Text.isWellFormed_ofString, canonicalQuery]
  refine ⟨_, ?_, Text.isWellFormed_join (Text.isWellFormed_ofString "\n") hformed⟩
  have hurl : (prepared smallKey (.ofSeconds 0) smallRequest).url = smallRequest.url := rfl
  rw [canonicalRequest, hurl, hparse, signedHeaders_small]
  dsimp only [bind, Except.bind]
  rw [hpath, hlines]
  rfl

theorem sign_small : ∃ r', sign smallKey 0 smallRequest = .ok r' := by
  obtain ⟨canonical, hcanonical, hformed⟩ := canonicalRequest_small
  obtain ⟨sig, hsig⟩ := authorizationOf_of_canonical (c := smallKey) (.ofSeconds 0) hcanonical hformed
    (Text.isWellFormed_ofString "secret") (Text.isWellFormed_ofString "us-east-1")
    (Text.isWellFormed_ofString "bedrock")
  refine ⟨signedWith smallKey (.ofSeconds 0) sig smallRequest, ?_⟩
  have hzero : Moment.ofSeconds (Int.fdiv 0 1000000) = .ofSeconds 0 := rfl
  rw [sign_eq, hzero, hsig]
  rfl

/-- The older signature does not show. -/
theorem signed_twice_small : ∃ r' s', sign smallKey 0 smallRequest = .ok r' ∧
    sign smallKey 0 r' = .ok r' ∧ sign smallKey 0 bareRequest = .ok s' ∧
      s'.headers.get? authorization = r'.headers.get? authorization := by
  have hsame : AlikeToSign smallKey smallRequest bareRequest := by
    refine ⟨rfl, rfl, rfl, by decide +kernel, fun name hname => get?_putAll_absent fun e he heq => ?_⟩
    have hown : ∀ e ∈ [(Text.ofString "Authorization", Text.ofString "old"), ("x-amz-date", "old")],
        stays smallKey e.1.lower = false := by decide +kernel
    rw [← heq, hown e he] at hname
    cases hname
  obtain ⟨r', hsign⟩ := sign_small
  obtain ⟨-, -, -, hagain, -, hrenewed⟩ := signed_twice hsign
  obtain ⟨s', hsign', hsig⟩ := hrenewed bareRequest hsame
  exact ⟨r', s', hsign, hagain, hsign', hsig⟩

theorem sign_blind_to_hops (c : AwsCredentials) (now : Int) (hmethod : r.method = s.method)
    (hurl : r.url = s.url) (hbody : r.body = s.body)
    (hheaders : ∀ name : Text, hopHeaders.contains name.lower = false →
      r.headers.get? name = s.headers.get? name) :
    (∀ f, sign c now r = .error f ↔ sign c now s = .error f) ∧
      ∀ r', sign c now r = .ok r' → ∃ s', sign c now s = .ok s' ∧
        (∀ name ∈ [authorization, dateStamp, securityToken],
          r'.headers.get? name = s'.headers.get? name) ∧
        (r'.headers.filter fun n => hopHeaders.contains n.lower) =
          (r.headers.filter fun n => hopHeaders.contains n.lower) ∧
        (s'.headers.filter fun n => hopHeaders.contains n.lower) =
          (s.headers.filter fun n => hopHeaders.contains n.lower) := by
  have hkept : ∀ key ∈ schemeNames, hopHeaders.contains key = false := by decide +kernel
  have hdated : r.headers.has date = s.headers.has date := by
    rw [Headers.has, Headers.has, hheaders date (by decide +kernel)]
  have hsame : AlikeToSign c r s := by
    refine ⟨hmethod, hurl, hbody, hdated, fun name hname => hheaders name ?_⟩
    rw [stays, Bool.and_eq_true] at hname
    simpa using hname.1
  obtain ⟨signature, hr, hs⟩ := sign_alike now hsame
  rw [hr, hs]
  cases signature with
  | error f => exact ⟨fun g => Iff.rfl, fun r' hr' => by cases hr'⟩
  | ok sig =>
      refine ⟨fun f => ⟨fun hf => ?_, fun hf => ?_⟩, fun r' hr' => ?_⟩
      · cases hf
      · cases hf
      · cases hr'
        refine ⟨_, rfl, fun name hname => ?_, filter_signedWith hkept .., filter_signedWith hkept ..⟩
        have hsmall : name.lower ∈ schemeNames := by
          obtain ⟨hauthorization, -, hstamp, htoken⟩ := small_names
          simp only [List.mem_cons, List.not_mem_nil, or_false] at hname
          rcases hname with rfl | rfl | rfl <;> simp [schemeNames, hauthorization, hstamp, htoken]
        have hlookup := hheaders name (hkept _ hsmall)
        dsimp only [signedWith]
        rw [hdated]
        exact get?_putAll_congr hlookup

theorem sign_blind_small : ∃ r' s', sign smallKey 0 smallRequest = .ok r' ∧
    sign smallKey 0 { smallRequest with headers := smallRequest.headers.put "user-agent" "b" } = .ok s' ∧
      r'.headers.get? authorization = s'.headers.get? authorization := by
  obtain ⟨r', hsign⟩ := sign_small
  have hheaders : ∀ name : Text, hopHeaders.contains name.lower = false → smallRequest.headers.get? name =
      (smallRequest.headers.put "user-agent" "b").get? name := by
    intro name hname
    have hagent : hopHeaders.contains (Text.lower "user-agent") = true := by decide +kernel
    have hne : Text.lower "user-agent" ≠ name.lower := fun heq => by
      rw [← heq, hagent] at hname
      cases hname
    rw [Headers.get?_put, if_neg hne]
  obtain ⟨-, halike⟩ := sign_blind_to_hops (r := smallRequest)
    (s := { smallRequest with headers := smallRequest.headers.put "user-agent" "b" }) smallKey 0 rfl rfl
    rfl hheaders
  obtain ⟨s', hsign', hsame, -⟩ := halike r' hsign
  exact ⟨r', s', hsign, hsign', hsame authorization (by simp)⟩

end KeySignature

end RemoteModel
