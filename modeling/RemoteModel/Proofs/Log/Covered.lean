import RemoteModel.Proofs.Log.Lines

/-!
What a line of a log tells, and what it does not. Records that differ in covered attributes, or in what a
line does not take over of a call, have the same line; every other attribute that a host adds is there with
its own value, whatever the call says under its name.
-/

namespace RemoteModel

namespace Json

def renderField (f : Text × Json) : Text :=
  renderText f.1 ++ .scalar ':' :: .scalar ' ' :: f.2.render

theorem renderFields_cons (f : Text × Json) (rest : Entries Json) :
    renderFields (f :: rest) = .scalar ',' :: .scalar ' ' :: (renderField f ++ renderFields rest) := by
  simp [renderFields, renderField]

theorem render_fields (f : Text × Json) (rest : Entries Json) :
    (Json.obj (f :: rest)).render = .scalar '\x7b' :: (renderField f ++ renderFields rest) := by
  simp [render, renderField]

theorem renderField_infix_append {f e : Text × Json} {rest : Entries Json} (hf : f ∈ e :: rest) :
    renderField f <:+: renderField e ++ renderFields rest := by
  induction rest generalizing e with
  | nil =>
      obtain rfl := List.mem_singleton.mp hf
      exact (List.prefix_append _ _).isInfix
  | cons g rest ih =>
      rcases List.mem_cons.mp hf with rfl | hf
      · exact (List.prefix_append _ _).isInfix
      · rw [renderFields_cons]
        exact (List.infix_cons (List.infix_cons (ih hf))).trans (List.suffix_append _ _).isInfix

theorem renderField_infix {f : Text × Json} {fields : Entries Json} (hf : f ∈ fields) :
    renderField f <:+: (Json.obj fields).render := by
  cases fields with
  | nil => cases hf
  | cons e rest =>
      rw [render_fields]
      exact List.infix_cons (renderField_infix_append hf)

end Json

namespace LogEvent

/-- Values under one name that no line tells apart: any two of a covered attribute, and two accounts of a
call with the same entries among those that a line takes over. -/
inductive Unseen (name : Text) : Json → Json → Prop
  | same (v : Json) : Unseen name v v
  | covered {v w : Json} : name ∈ redacted → Unseen name v w
  | call {fields fields' : Entries Json} : name = "invocation" →
      (∀ n ∈ callFields, fields.get? n = fields'.get? n) → Unseen name (.obj fields) (.obj fields')

structure Alike (e e' : LogEvent) : Prop where
  trace : e.trace = e'.trace
  attributes : Entries.Related Unseen e.attributes e'.attributes

variable {e e' : LogEvent}

theorem Unseen.eq {name : Text} {v w : Json} (h : Unseen name v w)
    (hopen : name ∉ Text.ofString "invocation" :: redacted) : v = w := by
  cases h with
  | same => rfl
  | covered hcovered => exact absurd (List.mem_cons_of_mem _ hcovered) hopen
  | call heq => exact absurd (heq ▸ List.mem_cons_self) hopen

theorem Unseen.shown {name : Text} {v w : Json} (h : Unseen name v w) (hextra : name ∉ standard) :
    (if redacted.contains name then (name, cover) else (name, v)) =
      if redacted.contains name then (name, cover) else (name, w) := by
  split
  next => rfl
  next hopen =>
    have hcall : name ≠ "invocation" := by
      rintro rfl
      exact hextra (by decide +kernel)
    rw [h.eq (List.not_mem_cons_of_ne_of_not_mem hcall (mt List.contains_iff_mem.mpr hopen))]

namespace Alike

theorem unseen (h : Alike e e') (name : Text) : Unseen name (e.get name) (e'.get name) := by
  have hvalue := h.attributes.get? name
  unfold get
  generalize e.attributes.get? name = v at hvalue ⊢
  generalize e'.attributes.get? name = w at hvalue ⊢
  cases hvalue with
  | none => exact .same _
  | some hseen => exact hseen

theorem get (h : Alike e e') (name : Text) (hopen : name ∉ Text.ofString "invocation" :: redacted) :
    e.get name = e'.get name := (h.unseen name).eq hopen

theorem message (h : Alike e e') : e.message = e'.message := by
  simp only [LogEvent.message, h.get "msg" (by decide +kernel), h.get "args" (by decide +kernel)]

theorem timeText (h : Alike e e') : e.timeText = e'.timeText := by
  simp only [LogEvent.timeText, h.get "created" (by decide +kernel), h.get "msecs" (by decide +kernel)]

theorem standardFields (h : Alike e e') (time message : Text) :
    e.standardFields time message = e'.standardFields time message := by
  have hplaced : ∀ name ∈ placed, name ∉ Text.ofString "invocation" :: redacted := by decide +kernel
  have hsame (name : Text) (hname : name ∈ placed) : e.get name = e'.get name :=
    h.get name (hplaced name hname)
  simp only [placed, List.forall_mem_cons] at hsame
  simp only [LogEvent.standardFields, hsame]

theorem callEntries (h : Alike e e') : e.callEntries = e'.callEntries := by
  have hcall := h.unseen "invocation"
  unfold LogEvent.callEntries
  generalize e.get "invocation" = v at hcall ⊢
  generalize e'.get "invocation" = w at hcall ⊢
  cases hcall with
  | same => rfl
  | covered hcovered => exact absurd hcovered (by decide +kernel)
  | call _ hfields => exact List.filterMap_congr fun n hn => by rw [hfields n hn]

theorem errorEntries (h : Alike e e') : e.errorEntries = e'.errorEntries := by
  simp only [LogEvent.errorEntries, h.get "error" (by decide +kernel), h.trace]

theorem extraEntries (h : Alike e e') : e.extraEntries = e'.extraEntries := by
  obtain ⟨-, hattributes⟩ := h
  unfold LogEvent.extraEntries
  generalize e.attributes = given at hattributes ⊢
  generalize e'.attributes = given' at hattributes ⊢
  induction hattributes with
  | nil => rfl
  | @cons a a' _ _ ha _ ih =>
      obtain ⟨name, v⟩ := a
      obtain ⟨_, w⟩ := a'
      obtain ⟨rfl, hseen⟩ := ha
      rw [List.filter_cons, List.filter_cons]
      split
      next hextra =>
        have hshown := hseen.shown (by simpa using hextra)
        rw [List.map_cons, List.map_cons, ih]
        exact congrArg (List.cons · _) hshown
      next => exact ih

theorem line (h : Alike e e') : e.line = e'.line := by
  have hstandard : e.standardFields = e'.standardFields :=
    funext fun time => funext fun message => h.standardFields time message
  unfold LogEvent.line LogEvent.fields
  rw [h.message, h.timeText, hstandard, h.callEntries, h.errorEntries, h.extraEntries]

end Alike

theorem get?_extra {name : Text} {v : Json} (hdistinct : e.attributes.names.Nodup)
    (hmem : (name, v) ∈ e.attributes) (hextra : name ∉ standard) (hopen : name ∉ redacted)
    (time message : Text) :
    (e.table time message).get? name = some v := by
  have hnodup : e.extraEntries.names.Nodup := by
    rw [names_extraEntries]
    exact hdistinct.filter _
  have hentry : (name, v) ∈ e.extraEntries := by
    refine List.mem_map.mpr ⟨(name, v), List.mem_filter.mpr ⟨hmem, by simpa using hextra⟩, if_neg ?_⟩
    simpa using hopen
  rw [table, Entries.get?_putAll, Entries.ofPairs_of_nodup hnodup, Entries.get?_of_mem hnodup hentry]
  rfl

/-- Records that are alike have the same line. A record with one value for each attribute whose message can be
written has a line, one field for each name, in which every further attribute that is not covered stands
with its own value. -/
theorem line_blind_to_secrets (e : LogEvent) :
    (∀ e', Alike e e' → e'.line = e.line) ∧
    ∀ message millis, e.message = .ok message → (e.get "msecs").whole = .ok millis →
      e.attributes.names.Nodup →
      ∃ fields, e.fields = .ok fields ∧ e.line = .ok (Json.obj fields).render ∧ fields.names.Nodup ∧
        ∀ name v, (name, v) ∈ e.attributes → name ∉ standard → name ∉ redacted →
          fields.get? name = some v ∧ Json.renderField (name, v) <:+: (Json.obj fields).render := by
  refine ⟨fun e' h => h.line.symm, fun message millis hmessage hmillis hdistinct => ?_⟩
  obtain ⟨time, -, hfields⟩ := fields_eq_table ⟨millis, hmillis⟩ hmessage
  refine ⟨_, hfields, by rw [line, hfields]; rfl, nodup_table, fun name v hmem hextra hopen => ?_⟩
  have hvalue := get?_extra hdistinct hmem hextra hopen time message
  exact ⟨hvalue, Json.renderField_infix (Entries.mem_of_get? hvalue)⟩

/-- Where a request went, with what it was sent with and what it was sent. -/
def sent (credential : Json) (about : Entries Json) : LogEvent where
  attributes :=
    [("msg", .str "sent"), ("credential", credential),
      ("invocation", .obj (("connector", .str "a") :: about)), ("connector", .str "b"), ("msecs", .int 5)]
  trace := none

theorem sent_alike (credential credential' : Json) (about about' : Entries Json)
    (h : ∀ n ∈ callFields, about.get? n = about'.get? n) :
    Alike (sent credential about) (sent credential' about') where
  trace := rfl
  attributes := by
    have hcovered : Text.ofString "credential" ∈ redacted := by decide +kernel
    refine .cons ⟨rfl, .same _⟩ (.cons ⟨rfl, .covered hcovered⟩ (.cons ⟨rfl, .call rfl ?_⟩
      (.cons ⟨rfl, .same _⟩ (.cons ⟨rfl, .same _⟩ .nil))))
    intro n hn
    rw [Entries.get?_cons, Entries.get?_cons, h n hn]

theorem sent_blind_to_secrets :
    Alike (sent .null []) (sent (.obj [("secret_key", .str "pw")]) [("body", .str "pw")]) ∧
    (sent (.obj [("secret_key", .str "pw")]) [("body", .str "pw")]).line = (sent .null []).line ∧
    ∃ fields : Entries Json, (sent .null []).line = .ok (Json.obj fields).render ∧
      fields.get? "connector" = some (.str "b") := by
  obtain ⟨hblind, htold⟩ := line_blind_to_secrets (sent .null [])
  have halike := sent_alike .null (.obj [("secret_key", .str "pw")]) [] [("body", .str "pw")]
    (by decide +kernel)
  obtain ⟨fields, -, hline, -, hvalues⟩ := htold "sent" 5 rfl rfl (by decide +kernel)
  exact ⟨halike, hblind _ halike, fields, hline,
    (hvalues "connector" (.str "b") (by simp [sent]) (by decide +kernel)
      (by decide +kernel)).1⟩

end LogEvent

end RemoteModel
