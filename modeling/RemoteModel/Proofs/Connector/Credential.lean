import RemoteModel.Connector.Basic
import RemoteModel.Proofs.Entries
import RemoteModel.Proofs.Results
import RemoteModel.Proofs.Template

/-!
Credential values in plain form. Each stored value is decrypted on its own and keeps its name; stored as
they are, all of them can be had.
-/

namespace RemoteModel.Connector

theorem decryptAll_plain (es : Entries (Option Text)) : ∃ plain, decryptAll .ok es = .ok plain := by
  induction es with
  | nil => exact ⟨_, rfl⟩
  | cons e es ih =>
      obtain ⟨name, value⟩ := e
      obtain ⟨plain, hplain⟩ := ih
      cases value with
      | none => exact ⟨plain, hplain⟩
      | some value =>
          rw [decryptAll, hplain]
          exact ⟨_, rfl⟩

theorem get?_decryptAll {decrypt : Decryptor} {es : Entries (Option Text)} {plain : Entries Text}
    (hplain : decryptAll decrypt es = .ok plain) {name value : Text}
    (hthere : es.get? name = some (some value)) :
    ∃ text, decrypt value = .ok text ∧ plain.get? name = some text := by
  induction es generalizing plain with
  | nil => cases hthere
  | cons e es ih =>
      obtain ⟨n, v⟩ := e
      rw [Entries.get?_cons] at hthere
      cases v with
      | none =>
          rw [decryptAll] at hplain
          split at hthere
          next => cases hthere
          next => exact ih hplain hthere
      | some v =>
          rw [decryptAll] at hplain
          obtain ⟨text, htext, hplain⟩ := ok_of_bind hplain
          obtain ⟨rest, hrest, hplain⟩ := ok_of_bind hplain
          cases hplain
          rw [Entries.get?_cons]
          split at hthere
          next hname =>
            cases hthere
            exact ⟨text, htext, if_pos hname⟩
          next hname =>
            rw [if_neg hname]
            exact ih hrest hthere

/-- Tables that hold values under the same names. -/
def SameNames (es es' : Entries (Option Text)) : Prop :=
  es.mapValues Option.isSome = es'.mapValues Option.isSome

theorem names_decryptAll {decrypt : Decryptor} {es : Entries (Option Text)} {plain : Entries Text}
    (hplain : decryptAll decrypt es = .ok plain) :
    plain.names = Entries.names ((es.mapValues Option.isSome).filter Prod.snd) := by
  induction es generalizing plain with
  | nil =>
      cases hplain
      rfl
  | cons e es ih =>
      obtain ⟨name, value⟩ := e
      cases value with
      | none => exact ih hplain
      | some value =>
          rw [decryptAll] at hplain
          obtain ⟨text, _, hplain⟩ := ok_of_bind hplain
          obtain ⟨rest, hrest, hplain⟩ := ok_of_bind hplain
          cases hplain
          exact congrArg (name :: ·) (ih hrest)

theorem isSome_ofTexts (plain : Entries Text) (name : Text) :
    (Template.Values.ofTexts (plain.mapValues some) name).isSome = decide (name ∈ plain.names) := by
  unfold Template.Values.ofTexts
  rw [Entries.get?_mapValues]
  induction plain with
  | nil => rfl
  | cons e plain ih =>
      rw [Entries.get?_cons]
      split
      next hname => exact (decide_eq_true (List.mem_cons.mpr (.inl hname.symm))).symm
      next hname =>
        rw [ih]
        exact decide_eq_decide.mpr
          (List.mem_cons.trans (or_iff_right fun heq => hname heq.symm)).symm

theorem isSome_filling (parameters : Entries Json) {plain plain' : Entries Text}
    (hnames : plain.names = plain'.names) (scope : Template.Scope) (name : Text) :
    (Template.Filling.get ⟨.ofEntries parameters, .ofTexts (plain.mapValues some)⟩ scope name).isSome =
      (Template.Filling.get ⟨.ofEntries parameters, .ofTexts (plain'.mapValues some)⟩ scope
        name).isSome := by
  cases scope with
  | parameters => rfl
  | credential =>
      change (Template.Values.ofTexts (plain.mapValues some) name).isSome =
        (Template.Values.ofTexts (plain'.mapValues some) name).isSome
      rw [isSome_ofTexts, isSome_ofTexts, hnames]

/-- The headers of a call under another table of credential values: they have the same names, or they
fail alike, unless the values cannot be had. -/
theorem headers_alike (c : Connector) {credential credential' : Entries (Option Text)}
    {decrypt decrypt' : Decryptor} {plain plain' : Entries Text}
    (hplain : decryptAll decrypt credential = .ok plain)
    (hplain' : decryptAll decrypt' credential' = .ok plain')
    (hsame : SameNames credential credential') (type : ActionType) (parameters : Entries Json) :
    Alike (fun hs hs' => hs.names = hs'.names)
      ({ c with credential := credential }.headers type decrypt parameters)
      ({ c with credential := credential' }.headers type decrypt' parameters) := by
  have hnames : plain.names = plain'.names := by
    rw [names_decryptAll hplain, names_decryptAll hplain', hsame]
  unfold headers plainCredential
  refine Alike.bind (Alike.of_eq (R := Eq) (fun _ => rfl) (c.action type)) fun a a' ha => ?_
  cases ha
  cases a.headers with
  | none => exact .ok rfl
  | some hs =>
      cases hs with
      | nil => exact .ok rfl
      | cons e hs =>
          dsimp only
          rw [hplain, hplain']
          refine .bind (R := fun plain plain' => plain.names = plain'.names) (.ok hnames)
            fun plain plain' hnames => ?_
          refine (Alike.mapM (R := fun h h' => h.1 = h'.1) (fun header => ?_) (e :: hs)).mono
            fun _ _ hall => ?_
          · obtain ⟨name, value⟩ := header
            cases value with
            | none => exact .error _
            | some template =>
                exact (Template.render_alike _ (isSome_filling parameters hnames) template).map
                  fun _ _ _ => rfl
          · exact List.forall₂_eq_eq_eq ▸
              List.forall₂_map_left_iff.mpr (List.forall₂_map_right_iff.mpr hall)

/-- When the values can be had of neither table, both may say so, each in its own way. -/
theorem headers_twin (c : Connector) {credential credential' : Entries (Option Text)}
    {decrypt decrypt' : Decryptor} (hsame : SameNames credential credential')
    (hdecrypt : (decryptAll decrypt credential).isOk = (decryptAll decrypt' credential').isOk)
    (type : ActionType) (parameters : Entries Json) :
    Alike (fun hs hs' => hs.names = hs'.names)
        ({ c with credential := credential }.headers type decrypt parameters)
        ({ c with credential := credential' }.headers type decrypt' parameters) ∨
      ∃ f f', decryptAll decrypt credential = .error f ∧ decryptAll decrypt' credential' = .error f' ∧
        { c with credential := credential }.headers type decrypt parameters = .error f ∧
        { c with credential := credential' }.headers type decrypt' parameters = .error f' := by
  cases hplain : decryptAll decrypt credential with
  | ok plain =>
      cases hplain' : decryptAll decrypt' credential' with
      | ok plain' => exact .inl (c.headers_alike hplain hplain' hsame type parameters)
      | error => rw [hplain, hplain'] at hdecrypt; cases hdecrypt
  | error f =>
      cases hplain' : decryptAll decrypt' credential' with
      | ok => rw [hplain, hplain'] at hdecrypt; cases hdecrypt
      | error f' =>
          unfold headers plainCredential
          change Alike _ (c.action type >>= _) (c.action type >>= _) ∨ ∃ g g', _ ∧ _ ∧
            (c.action type >>= _) = _ ∧ (c.action type >>= _) = _
          cases c.action type with
          | error => exact .inl (.error _)
          | ok a =>
              dsimp only [bind, Except.bind]
              rw [hplain, hplain']
              split
              next => exact .inl (.ok rfl)
              next => exact .inl (.ok rfl)
              next => exact .inr ⟨f, f', rfl, rfl, rfl, rfl⟩

end RemoteModel.Connector
