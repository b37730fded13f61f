import RemoteModel.Executor
import RemoteModel.Proofs.Results
import RemoteModel.Resilience.Classifier

/-!
What goes wrong with a request before it is sent is local: an address or a header that cannot travel, a
value that cannot be written, a key that cannot be had. No breaker counts it and no caller repeats it.
-/

namespace RemoteModel

/-- Classes of errors that stand neither for an exchange that failed nor for an answer. -/
def ErrorClass.isLocal (c : ErrorClass) : Bool :=
  !c.isA (.own .transport) && !c.isA (.own .remoteService)

def Failure.isLocal (f : Failure) : Bool := f.kind.isLocal

theorem ErrorClass.isLocal_of_keyLoad {c : ErrorClass} (h : c.isA (.own .keyLoad) = true) :
    c.isLocal = true := by
  have hall : ∀ c ∈ all, c.isA (.own .keyLoad) = true → c.isLocal = true := by
    decide +kernel
  exact hall c c.mem_all h

theorem ErrorClass.isLocal_of_not_exception {c : ErrorClass}
    (h : c.isA (.basic .exception) = false) : c.isLocal = true := by
  have hall : ∀ c ∈ all, c.isA (.basic .exception) = false → c.isLocal = true := by
    decide +kernel
  exact hall c c.mem_all h

theorem Failure.counts_of_isLocal {f : Failure} (h : f.isLocal = true) :
    Executor.counts f = false := by
  unfold isLocal ErrorClass.isLocal at h
  rw [Bool.and_eq_true, Bool.not_eq_true', Bool.not_eq_true'] at h
  exact h.1

theorem Failure.not_retriable_of_isLocal {f : Failure} (h : f.isLocal = true) :
    Classifier.invocation.isRetriable f = false := by
  unfold isLocal ErrorClass.isLocal at h
  rw [Bool.and_eq_true, Bool.not_eq_true', Bool.not_eq_true'] at h
  obtain ⟨htransport, hremote⟩ := h
  unfold Classifier.invocation Failure.isA
  dsimp only
  rw [htransport]
  split
  next => rfl
  next =>
    rw [if_neg Bool.false_ne_true]
    split
    next => cases hremote
    next => rfl

/-- Computations whose errors are local. -/
def FailsLocally {α : Type} (x : Except Failure α) : Prop := ∀ f, x = .error f → f.isLocal = true

namespace FailsLocally

variable {α β : Type}

theorem ok (v : α) : FailsLocally (.ok v) := by
  intro f h
  cases h

theorem error {f : Failure} (h : f.isLocal = true) :
    FailsLocally (.error f : Except Failure α) := by
  intro f' hf
  cases hf
  exact h

theorem bind {x : Except Failure α} {next : α → Except Failure β} (hx : FailsLocally x)
    (hnext : ∀ v, FailsLocally (next v)) : FailsLocally (x >>= next) := by
  cases x with
  | error f => exact error (hx f rfl)
  | ok v => exact hnext v

theorem map {x : Except Failure α} (hx : FailsLocally x) (g : α → β) : FailsLocally (x.map g) := by
  cases x with
  | error f => exact error (hx f rfl)
  | ok v => exact ok (g v)

theorem ite {p : Prop} [Decidable p] {x y : Except Failure α} (hx : FailsLocally x)
    (hy : FailsLocally y) : FailsLocally (if p then x else y) := by
  split
  next => exact hx
  next => exact hy

theorem encode (t : Text) : FailsLocally (Text.encode t) := by
  unfold Text.encode
  split
  next => exact ok _
  next =>
    split
    next => exact error rfl
    next => exact ok _

theorem parse (t : Text) : FailsLocally (Address.parse t) := by
  unfold Address.parse
  dsimp only
  split
  next => exact error rfl
  next => exact ok _

theorem port (a : Address) : FailsLocally a.port := by
  unfold Address.port
  split
  next => exact ok _
  next =>
    dsimp only
    split
    next =>
      split
      next => exact ok _
      next => exact error rfl
    next => exact error rfl

end FailsLocally

namespace Request

theorem escapeAll_local (t : Text) : FailsLocally (Target.escapeAll t) := by
  unfold Target.escapeAll
  split <;> exact (FailsLocally.encode _).map _

theorem target_local [HostEncoder] (url : Text) : FailsLocally (Target.prepare url) := by
  unfold Target.prepare
  dsimp only
  split
  next => exact .ok _
  next =>
    split
    next => exact .error rfl
    next =>
      split
      next => exact .error rfl
      next => exact .error rfl
      next => exact .error rfl
      all_goals
        split
        next => exact .error rfl
        next => exact escapeAll_local _

theorem checkHeaders_local (headers : Entries Text) : FailsLocally (checkHeaders headers) := by
  induction headers with
  | nil => exact .ok ()
  | cons header rest ih =>
      obtain ⟨name, value⟩ := header
      unfold checkHeaders
      split
      next => exact .error rfl
      next =>
        split
        next => exact .error rfl
        next => exact ih

theorem prepare_local [HostEncoder] (method url : Text) (headers : Entries Text) (body : Option Bytes) :
    FailsLocally (prepare method url headers body) := by
  unfold prepare
  refine (target_local url).bind fun url => ?_
  exact (checkHeaders_local _).bind fun _ => .ok _

theorem encodeLatin_local (t : Text) : FailsLocally (encodeLatin t) := by
  unfold encodeLatin
  dsimp only
  split
  next => exact .ok _
  next => exact .error rfl

theorem withUser_local (r : Request) : FailsLocally r.withUser := by
  unfold withUser
  refine (FailsLocally.parse r.url).bind fun a => ?_
  split
  next => exact .ok _
  next =>
    split
    next =>
      dsimp only
      split
      next => exact .ok _
      next =>
        refine (encodeLatin_local _).bind fun _ => ?_
        exact (encodeLatin_local _).bind fun _ => .ok _
    next => exact .ok _

end Request

namespace KeySignature

theorem hostOf_local (url : Text) : FailsLocally (hostOf url) := by
  unfold hostOf
  refine (FailsLocally.parse url).bind fun a => ?_
  refine (FailsLocally.port a).bind fun port => ?_
  dsimp only
  cases a.host? with
  | some host => exact .ok _
  | none =>
      dsimp only
      exact .ite (.error rfl) (.ok _)

theorem signedHeaders_local (url : Text) (h : Headers) : FailsLocally (signedHeaders url h) := by
  unfold signedHeaders
  dsimp only
  split
  next => exact (FailsLocally.ok _).bind fun _ => .ok _
  next => exact ((hostOf_local url).map _).bind fun _ => .ok _

theorem headerLines_local (headers : Entries Text) : FailsLocally (headerLines headers) := by
  induction headers with
  | nil => exact .ok _
  | cons header rest ih =>
      obtain ⟨name, value⟩ := header
      unfold headerLines canonicalValue
      refine FailsLocally.bind ?_ fun _ => ih.bind fun _ => .ok _
      split
      next => exact .ok _
      next => exact .error rfl

theorem canonicalRequest_local (r : Request) : FailsLocally (canonicalRequest r) := by
  unfold canonicalRequest canonicalPath
  refine (FailsLocally.parse r.url).bind fun a => ?_
  refine ((FailsLocally.encode _).map _).bind fun path => ?_
  refine (signedHeaders_local r.url r.headers).bind fun signed => ?_
  exact (headerLines_local signed).bind fun _ => .ok _

theorem signingKey_local (c : AwsCredentials) (day : Text) : FailsLocally (signingKey c day) := by
  unfold signingKey
  refine (FailsLocally.encode _).bind fun _ => ?_
  refine (FailsLocally.encode _).bind fun _ => ?_
  exact (FailsLocally.encode _).bind fun _ => .ok _

theorem sign_local (c : AwsCredentials) (now : Int) (r : Request) :
    FailsLocally (sign c now r) := by
  unfold sign authorizationOf
  refine FailsLocally.bind ?_ fun _ => .ok _
  refine (canonicalRequest_local _).bind fun canonical => ?_
  refine (FailsLocally.encode _).bind fun _ => ?_
  refine (signingKey_local c _).bind fun key => ?_
  refine (FailsLocally.encode _).bind fun _ => ?_
  exact (signedHeaders_local _ _).bind fun _ => .ok _

end KeySignature

theorem LazySigner.blamed_local (s : LazySigner) (f : Failure) : (s.blamed f).isLocal = true := by
  unfold blamed
  split
  next hkey => exact ErrorClass.isLocal_of_keyLoad hkey
  next =>
    split
    next => rfl
    next hstrange => exact ErrorClass.isLocal_of_not_exception (Bool.not_eq_true _ ▸ hstrange)

theorem LazySigner.get_local (s : LazySigner) (h : Host) : FailsLocally (s.get h).1 := by
  unfold get
  split
  next => exact .ok _
  next =>
    split
    next f _ _ => exact .error (s.blamed_local f)
    next => exact .ok _

theorem RequestAuth.sign_local (a : RequestAuth) (r : Request) (h : Host) :
    FailsLocally (a.sign r h).1 := by
  cases a with
  | unsigned => exact r.withUser_local
  | key c => exact KeySignature.sign_local c h.journal.now r
  | lazy s =>
      have hgot := s.get_local h
      unfold sign LazySigner.sign
      dsimp only
      split
      next hrun => exact .ok _
      next f _ _ hrun =>
        rw [hrun] at hgot
        exact .error (hgot f rfl)

end RemoteModel
