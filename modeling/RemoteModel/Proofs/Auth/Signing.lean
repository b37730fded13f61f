import RemoteModel.Auth.KeySignature
import RemoteModel.Proofs.Http.Headers

/-!
What a signer does to the headers of a request. It sets the date, the token and the signature, and of what
it set before nothing goes into the next signature.
-/

namespace RemoteModel.KeySignature

open Headers

variable {c : AwsCredentials} {m : Moment} {r s : Request} {h : Headers} {sig : Text}

/-- The token that goes with a request, if the credentials have one. -/
def tokenOf (c : AwsCredentials) : Option Text := c.sessionToken.filter fun t => !t.isEmpty

/-- Names, in small letters, of the headers that a signer sets anew. -/
def isOwn (c : AwsCredentials) (key : Text) : Bool :=
  key = authorization.lower || key = date.lower || key = dateStamp.lower ||
    (tokenOf c).isSome && key = securityToken.lower

/-- The date and the token that are signed with a request, for one that has a date and one that has none. -/
def marks (c : AwsCredentials) (m : Moment) (hasDate : Bool) : Entries Text :=
  (if hasDate then (date, m.mailText) else (dateStamp, m.basicText)) ::
    (tokenOf c).toList.map (securityToken, ·)

theorem small_names : authorization.lower = "authorization" ∧ date.lower = "date" ∧
    dateStamp.lower = "x-amz-date" ∧ securityToken.lower = "x-amz-security-token" := by
  decide +kernel

theorem names_apart : date.lower ≠ authorization.lower ∧ dateStamp.lower ≠ authorization.lower ∧
    securityToken.lower ≠ authorization.lower ∧ date.lower ≠ dateStamp.lower ∧
    date.lower ≠ securityToken.lower ∧ dateStamp.lower ≠ securityToken.lower := by
  obtain ⟨hauthorization, hdate, hstamp, htoken⟩ := small_names
  rw [hauthorization, hdate, hstamp, htoken]
  decide

theorem has_erase {name other : Text} (hne : other.lower ≠ name.lower) :
    (h.erase other).has name = h.has name := by
  have hkept : decide (name.lower ≠ other.lower) = true := decide_eq_true (Ne.symm hne)
  exact congrArg Option.isSome
    ((get?_filter h (fun key => decide (key ≠ other.lower)) name).trans (if_pos hkept))

theorem entries_renew (h : Headers) (name value : Text) :
    ((h.erase name).put name value).entries = (h.erase name).entries ++ [(name, value)] := by
  apply entries_put_of_absent
  simp [keysOf, Headers.erase]

theorem ne_of_not_has {name : Text} (hname : h.has name = false) :
    ∀ e ∈ h.entries, e.1.lower ≠ name.lower := by
  intro e he hsame
  have hnone : h.get? name = none := by simpa [Headers.has] using hname
  exact get?_eq_none_iff.mp hnone (hsame ▸ List.mem_map_of_mem he)

/-- Setting the date drops every header that carried a date before. -/
def redated (m : Moment) (h : Headers) : Headers :=
  if h.has date then ((h.erase date).put date m.mailText).erase dateStamp
  else (h.erase dateStamp).put dateStamp m.basicText

theorem redated_entries (m : Moment) (h : Headers) : (redated m h).entries =
    (h.entries.filter fun e => !(decide (e.1.lower = date.lower) || decide (e.1.lower = dateStamp.lower))) ++
      [if h.has date then (date, m.mailText) else (dateStamp, m.basicText)] := by
  obtain ⟨-, -, -, hne, -⟩ := names_apart
  unfold redated
  cases hold : h.has date with
  | true =>
      change List.filter _ ((h.erase date).put date m.mailText).entries = _
      rw [entries_renew, List.filter_append]
      simp [Headers.erase, List.filter_filter, hne, Bool.and_comm]
  | false =>
      have habsent := ne_of_not_has hold
      change ((h.erase dateStamp).put dateStamp m.basicText).entries = _
      rw [entries_renew]
      refine congrArg (· ++ _) (List.filter_congr fun e he => ?_)
      simp [habsent e he]

theorem dated_eq (c : AwsCredentials) (m : Moment) (h : Headers) : dated c m h =
    (tokenOf c).elim (redated m (h.erase authorization)) fun token =>
      ((redated m (h.erase authorization)).erase securityToken).put securityToken token := by
  unfold dated redated tokenOf
  cases c.sessionToken with
  | none => rfl
  | some token => cases token <;> rfl

theorem dated_entries (c : AwsCredentials) (m : Moment) (h : Headers) : (dated c m h).entries =
    (h.entries.filter fun e => !isOwn c e.1.lower) ++ marks c m (h.has date) := by
  obtain ⟨hauthorization, -, -, -, hdate, hstamp⟩ := names_apart
  have hhas : (h.erase authorization).has date = h.has date := has_erase (Ne.symm hauthorization)
  have hbase : (redated m (h.erase authorization)).entries =
      (h.entries.filter fun e => !(decide (e.1.lower = authorization.lower) ||
        decide (e.1.lower = date.lower) || decide (e.1.lower = dateStamp.lower))) ++
        [if h.has date then (date, m.mailText) else (dateStamp, m.basicText)] := by
    rw [redated_entries, hhas]
    simp [Headers.erase, List.filter_filter, Bool.and_comm, Bool.and_assoc]
  rw [dated_eq]
  unfold isOwn marks
  cases tokenOf c with
  | none => simpa using hbase
  | some token =>
      change (((redated m (h.erase authorization)).erase securityToken).put securityToken token).entries = _
      rw [entries_renew]
      unfold Headers.erase at hbase ⊢
      dsimp only at hbase ⊢
      rw [hbase, List.filter_append, List.filter_filter]
      cases h.has date <;> simp [hdate, hstamp, Bool.and_comm]

def stays (c : AwsCredentials) (key : Text) : Bool := !hopHeaders.contains key && !isOwn c key

theorem prepared_entries (c : AwsCredentials) (m : Moment) (r : Request) :
    (prepared c m r).headers.entries =
      (r.headers.filter fun n => stays c n.lower).entries ++ marks c m (r.headers.has date) := by
  have hdate : hopHeaders.contains date.lower = false := by decide +kernel
  have hhas : (r.headers.filter fun n => !hopHeaders.contains n.lower).has date = r.headers.has date := by
    rw [Headers.has, Headers.has]
    refine congrArg Option.isSome
      ((get?_filter r.headers (fun key => !hopHeaders.contains key) date).trans ?_)
    rw [hdate]
    rfl
  change (dated c m (r.headers.filter fun n => !hopHeaders.contains n.lower)).entries = _
  rw [dated_entries, hhas]
  simp [Headers.filter, stays, List.filter_filter, Bool.and_comm]

def setBy (c : AwsCredentials) (m : Moment) (hasDate : Bool) (sig : Text) : Entries Text :=
  marks c m hasDate ++ [(authorization, sig)]

theorem name_of_mem_marks {hasDate : Bool} {e : Text × Text} (he : e ∈ marks c m hasDate) :
    e.1 = (if hasDate then date else dateStamp) ∨ (tokenOf c).isSome = true ∧ e.1 = securityToken := by
  rw [marks] at he
  rcases List.mem_cons.mp he with rfl | he
  · left
    cases hasDate <;> rfl
  · right
    obtain ⟨token, htoken, rfl⟩ := List.mem_map.mp he
    have hsome : tokenOf c = some token := by simpa using htoken
    exact ⟨by rw [hsome]; rfl, rfl⟩

theorem isOwn_of_mem_marks {hasDate : Bool} {e : Text × Text} (he : e ∈ marks c m hasDate) :
    isOwn c e.1.lower = true ∧ e.1.lower ≠ authorization.lower := by
  obtain ⟨hdate, hstamp, htoken, -⟩ := names_apart
  rcases name_of_mem_marks he with hname | ⟨hsome, hname⟩
  · cases hasDate with
    | false =>
        have hname : e.1 = dateStamp := hname
        exact ⟨by simp [isOwn, hname], hname ▸ hstamp⟩
    | true =>
        have hname : e.1 = date := hname
        exact ⟨by simp [isOwn, hname], hname ▸ hdate⟩
  · exact ⟨by simp [isOwn, hname, hsome], hname ▸ htoken⟩

theorem isOwn_of_mem_setBy {hasDate : Bool} {e : Text × Text} (he : e ∈ setBy c m hasDate sig) :
    isOwn c e.1.lower = true := by
  rcases List.mem_append.mp he with he | he
  · exact (isOwn_of_mem_marks he).1
  · rw [List.mem_singleton.mp he]
    simp [isOwn]

/-- A request with a signature put into it. -/
def signedWith (c : AwsCredentials) (m : Moment) (sig : Text) (r : Request) : Request :=
  { r with headers := r.headers.putAll (setBy c m (r.headers.has date) sig) }

theorem sign_eq (c : AwsCredentials) (now : Int) (r : Request) :
    sign c now r = (authorizationOf c (.ofSeconds (now.fdiv 1000000))
      (prepared c (.ofSeconds (now.fdiv 1000000)) r)).map fun sig =>
        signedWith c (.ofSeconds (now.fdiv 1000000)) sig r := by
  unfold sign
  dsimp only
  generalize Moment.ofSeconds (now.fdiv 1000000) = m
  cases authorizationOf c m (prepared c m r) with
  | error f => rfl
  | ok sig =>
      have hentries := prepared_entries c m r
      have habsent : authorization.lower ∉ keysOf (prepared c m r).headers.entries := by
        intro hmem
        obtain ⟨e, he, hname⟩ := List.mem_map.mp hmem
        rw [hentries] at he
        rcases List.mem_append.mp he with he | he
        · have hstays : stays c e.1.lower = true := (List.mem_filter.mp he).2
          simp [stays, isOwn, hname] at hstays
        · exact (isOwn_of_mem_marks he).2 hname
      have hkept : r.headers.putAll (r.headers.filter fun n => stays c n.lower).entries = r.headers :=
        putAll_self fun e he => (List.mem_filter.mp he).1
      have hset : r.headers.putAll ((prepared c m r).headers.put authorization sig).entries =
          r.headers.putAll (setBy c m (r.headers.has date) sig) := by
        rw [entries_put_of_absent habsent, hentries, List.append_assoc, putAll_append, hkept]
        rfl
      exact congrArg (fun headers => Except.ok { r with headers := headers }) hset

theorem names_setBy (c : AwsCredentials) (m m' : Moment) (hasDate : Bool) (sig sig' : Text) :
    (setBy c m hasDate sig).names = (setBy c m' hasDate sig').names := by
  cases hasDate <;> simp [setBy, marks, Entries.names]

theorem nodup_setBy (c : AwsCredentials) (m : Moment) (hasDate : Bool) (sig : Text) :
    (keysOf (setBy c m hasDate sig)).Nodup := by
  obtain ⟨hdate, hstamp, htoken, -, hdate', hstamp'⟩ := names_apart
  rw [setBy, marks, keysOf]
  cases hasDate <;> cases tokenOf c <;> simp [hdate, hstamp, htoken, hdate', hstamp']

theorem has_date_signedWith (c : AwsCredentials) (m : Moment) (sig : Text) (r : Request) :
    (signedWith c m sig r).headers.has date = r.headers.has date := by
  change (r.headers.putAll (setBy c m (r.headers.has date) sig)).has date = _
  cases hold : r.headers.has date with
  | true =>
      have hmem : (date, m.mailText) ∈ setBy c m true sig := by simp [setBy, marks]
      rw [Headers.has, get?_putAll_mem (nodup_setBy c m true sig) hmem]
      rfl
  | false =>
      obtain ⟨hauthorization, -, -, hstamp, htoken, -⟩ := names_apart
      have hothers : ∀ e ∈ setBy c m false sig, e.1.lower ≠ date.lower := by
        intro e he
        rcases List.mem_append.mp he with he | he
        · rcases name_of_mem_marks he with hname | ⟨-, hname⟩
          · exact hname ▸ Ne.symm hstamp
          · exact hname ▸ Ne.symm htoken
        · exact List.mem_singleton.mp he ▸ Ne.symm hauthorization
      rw [Headers.has, get?_putAll_absent hothers]
      exact hold

/-- A signed request goes into the next signature like the one that was signed. -/
theorem prepared_signedWith (c : AwsCredentials) (m m' : Moment) (sig : Text) (r : Request) :
    prepared c m' (signedWith c m sig r) = prepared c m' r := by
  have hfilter : ((signedWith c m sig r).headers.filter fun n => stays c n.lower) =
      r.headers.filter fun n => stays c n.lower :=
    filter_putAll fun e he => by simp [stays, isOwn_of_mem_setBy he]
  have hheaders : (prepared c m' (signedWith c m sig r)).headers = (prepared c m' r).headers := by
    apply ext_entries
    rw [prepared_entries, prepared_entries, hfilter, has_date_signedWith]
  exact congrArg (fun headers => { r with headers := headers }) hheaders

theorem signedWith_signedWith (c : AwsCredentials) (m m' : Moment) (sig sig' : Text) (r : Request) :
    signedWith c m' sig' (signedWith c m sig r) = signedWith c m' sig' r := by
  have hheaders : (signedWith c m' sig' (signedWith c m sig r)).headers =
      (signedWith c m' sig' r).headers := by
    change (signedWith c m sig r).headers.putAll
      (setBy c m' ((signedWith c m sig r).headers.has date) sig') = _
    rw [has_date_signedWith]
    exact putAll_putAll (names_setBy ..) (nodup_setBy ..)
  exact congrArg (fun headers => { r with headers := headers }) hheaders

/-- However often a request is signed, its last signature is all that counts. -/
theorem sign_of_sign {now : Int} {r' : Request} (hsign : sign c now r = .ok r') (later : Int) :
    sign c later r' = sign c later r := by
  rw [sign_eq] at hsign
  cases hauth : authorizationOf c (.ofSeconds (now.fdiv 1000000))
      (prepared c (.ofSeconds (now.fdiv 1000000)) r) with
  | error f =>
      rw [hauth] at hsign
      cases hsign
  | ok sig =>
      rw [hauth] at hsign
      cases hsign
      rw [sign_eq, sign_eq, prepared_signedWith]
      simp only [signedWith_signedWith]

end RemoteModel.KeySignature
