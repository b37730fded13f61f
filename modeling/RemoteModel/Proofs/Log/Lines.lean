import RemoteModel.Log.Formatter
import RemoteModel.Proofs.Calendar
import RemoteModel.Proofs.Entries
import RemoteModel.Proofs.Json.RoundTrip
import RemoteModel.Proofs.Json.Written

/-!
Lines of a log. Whatever text a record holds, its line is one line of printable ASCII, and what is read
from the line is what the record says, entry by entry. Only halves of a surrogate pair that a text brings
together come back as the character they make up.
-/

namespace RemoteModel

namespace Json

/-- Null, a text, or a whole number that is not too long to be read. -/
def Plain : Json → Prop
  | .null | .str _ => True
  | .int i => (Json.int i).Exact
  | _ => False

theorem Plain.exact {v : Json} (hv : v.Plain) : Everywhere Exact v := by
  cases v with
  | null => exact .leaf rfl trivial
  | str => exact .leaf rfl trivial
  | int i => exact .leaf rfl hv
  | bool | float | arr | obj => exact hv.elim

theorem Plain.distinct {v : Json} (hv : v.Plain) : Everywhere Distinct v := by
  cases v with
  | null | str | int => exact .leaf rfl trivial
  | bool | float | arr | obj => exact hv.elim

theorem Plain.rejoined {v : Json} (hv : v.Plain) (hunsplit : ∀ t, v = .str t → Unsplit t) :
    v.rejoined = v := by
  cases v with
  | str t => rw [Json.rejoined, joined_of_unsplit (hunsplit t rfl)]
  | null | int => rfl
  | bool | float | arr | obj => exact hv.elim

theorem rejoinedFields_of_names {fields : Entries Json}
    (hnames : ∀ f ∈ fields, f.1.isWellFormed = true) :
    rejoinedFields fields = fields.mapValues Json.rejoined := by
  rw [rejoinedFields_eq]
  exact List.map_congr_left fun f hf => by rw [joined_of_scalars (hnames f hf)]

end Json

namespace LogEvent

/-- Attributes that every line has a place for. -/
def placed : List Text :=
  ["processName", "process", "threadName", "thread", "levelname", "name", "pathname", "lineno"]

/-- A further attribute, what a call says about itself, or an error. -/
def isExtra (name : Text) : Bool :=
  !standard.contains name || name = "invocation" || name = "error"

/-- Names and texts are well formed, and numbers can be read. -/
def Extra (f : Text × Json) : Prop :=
  f.1.isWellFormed = true ∧ Json.Everywhere Json.Tidy f.2 ∧ Json.Everywhere Json.Exact f.2

/-- Records that were not logged with an error raised. What they hold beside their message is text, or
whole numbers that are not too long; extras are documents. -/
structure Loggable (e : LogEvent) : Prop where
  unraised : e.trace = none
  dated : ∃ millis, (e.get "msecs").whole = .ok millis
  plain : ∀ name ∈ placed, (e.get name).Plain
  extras : ∀ a ∈ e.attributes, isExtra a.1 = true → Extra a

/-- The fields of a line, given what stands for its time and its message. -/
def table (e : LogEvent) (time message : Text) : Entries Json :=
  (((e.standardFields time message).putAll e.callEntries).putAll e.errorEntries).putAll e.extraEntries

variable {e : LogEvent} {time message : Text}

theorem fields_eq_table (hdated : ∃ millis, (e.get "msecs").whole = .ok millis)
    (hmessage : e.message = .ok message) :
    ∃ time : Text, time.isWellFormed = true ∧ e.fields = .ok (e.table time message) := by
  obtain ⟨millis, hmillis⟩ := hdated
  have htime : ∃ time : Text, e.timeText = .ok time ∧ time.isWellFormed = true := by
    refine ⟨_, by simp only [timeText, hmillis]; rfl, ?_⟩
    have hsign : Text.isWellFormed (if millis < 0 then ("-" : Text) else []) = true := by
      split <;> rfl
    simp [Moment.isWellFormed_dateText, Moment.isWellFormed_timeText, Moment.isWellFormed_padded,
      Text.isWellFormed_ofString, hsign]
  obtain ⟨time, htime, hformed⟩ := htime
  refine ⟨time, hformed, ?_⟩
  simp only [fields, hmessage, htime]
  rfl

theorem mem_table {f : Text × Json} (hf : f ∈ e.table time message) :
    f ∈ e.standardFields time message ∨ f ∈ e.callEntries ∨ f ∈ e.errorEntries ∨
      f ∈ e.extraEntries := by
  rcases Entries.mem_of_mem_putAll hf with hf | hf
  · rcases Entries.mem_of_mem_putAll hf with hf | hf
    · rcases Entries.mem_of_mem_putAll hf with hf | hf
      · exact .inl hf
      · exact .inr (.inl hf)
    · exact .inr (.inr (.inl hf))
  · exact .inr (.inr (.inr hf))

theorem nodup_table : (e.table time message).names.Nodup := by
  have hstandard : (e.standardFields time message).names.Nodup := by
    simp only [standardFields, Entries.names, List.map]
    decide
  exact Entries.nodup_putAll (Entries.nodup_putAll (Entries.nodup_putAll hstandard _) _) _

theorem names_extraEntries (e : LogEvent) :
    e.extraEntries.names = e.attributes.names.filter fun name => !standard.contains name := by
  unfold extraEntries Entries.names
  rw [List.map_map, List.filter_map]
  refine List.map_congr_left fun a _ => ?_
  dsimp only [Function.comp_apply]
  split <;> rfl

/-- What a field of a line holds. -/
inductive IsField (e : LogEvent) (time message : Text) : Text × Json → Prop
  | time {name : Text} : name.isWellFormed = true → IsField e time message (name, .str time)
  | message {name : Text} : name.isWellFormed = true → IsField e time message (name, .str message)
  | placed {name origin : Text} : name.isWellFormed = true → origin ∈ placed →
      IsField e time message (name, e.get origin)
  | extra {f : Text × Json} : Extra f → IsField e time message f

/-- Nothing that a record holds takes the place of its message. -/
theorem get?_message : (e.table time message).get? "message" = some (.str message) := by
  have hcall : Text.ofString "message" ∉ Entries.names e.callEntries := by
    intro hmem
    obtain ⟨f, hf, hname⟩ := List.mem_map.mp hmem
    unfold callEntries at hf
    split at hf
    next fields _ =>
      obtain ⟨name, hfield, hvalue⟩ := List.mem_filterMap.mp hf
      split at hvalue <;> cases hvalue
      rw [show name = "message" from hname] at hfield
      exact absurd hfield (by decide)
    next => cases hf
  have herror : Text.ofString "message" ∉ Entries.names e.errorEntries := by
    intro hmem
    unfold errorEntries at hmem
    split at hmem
    next => cases hmem
    all_goals
      have hname : Text.ofString "message" = "error" := List.mem_singleton.mp hmem
      exact absurd hname (by decide)
  have hextra : Text.ofString "message" ∉ Entries.names e.extraEntries := by
    have hstandard : standard.contains (Text.ofString "message") = true := by decide
    rw [names_extraEntries, List.mem_filter, hstandard]
    exact fun hmem => Bool.false_ne_true hmem.2
  rw [table, Entries.get?_putAll_of_not_mem hextra, Entries.get?_putAll_of_not_mem herror,
    Entries.get?_putAll_of_not_mem hcall]
  rfl

theorem isField_of_standard {f : Text × Json} (hf : f ∈ e.standardFields time message) :
    IsField e time message f := by
  simp only [standardFields, List.mem_cons, List.not_mem_nil, or_false] at hf
  rcases hf with rfl | rfl | rfl | rfl | rfl | rfl | rfl | rfl | rfl | rfl
  case inl => exact .time rfl
  case inr.inr.inr.inr.inr.inr.inr.inr.inr => exact .message rfl
  all_goals exact .placed rfl (by decide)

theorem Loggable.extra_get (he : e.Loggable) (name : Text) (hname : isExtra name = true) :
    Json.Everywhere Json.Tidy (e.get name) ∧ Json.Everywhere Json.Exact (e.get name) := by
  unfold get
  cases h : e.attributes.get? name with
  | none => exact ⟨.leaf rfl trivial, .leaf rfl trivial⟩
  | some v => exact (he.extras _ (Entries.mem_of_get? h) hname).2

theorem Loggable.extra_callEntries (he : e.Loggable) {f : Text × Json} (hf : f ∈ e.callEntries) :
    Extra f := by
  obtain ⟨htidy, hexact⟩ := he.extra_get "invocation" rfl
  unfold callEntries at hf
  split at hf
  next fields hinvocation =>
    rw [hinvocation] at htidy hexact
    obtain ⟨name, hname, hvalue⟩ := List.mem_filterMap.mp hf
    split at hvalue
    next => cases hvalue
    next => cases hvalue
    next v _ hget =>
      cases hvalue
      have hmem := Entries.mem_of_get? hget
      exact ⟨htidy.here.1 name (List.mem_map_of_mem hmem), htidy.field hmem, hexact.field hmem⟩
  next => cases hf

theorem Loggable.extra_errorEntries (he : e.Loggable) {f : Text × Json} (hf : f ∈ e.errorEntries) :
    Extra f := by
  have hget := he.extra_get "error" rfl
  unfold errorEntries at hf
  rw [he.unraised] at hf
  split at hf
  next => cases hf
  next heq => cases heq
  next => exact List.mem_singleton.mp hf ▸ ⟨rfl, hget⟩

theorem Loggable.extra_extraEntries (he : e.Loggable) {f : Text × Json} (hf : f ∈ e.extraEntries) :
    Extra f := by
  obtain ⟨a, ha, rfl⟩ := List.mem_map.mp hf
  obtain ⟨ha, hfurther⟩ := List.mem_filter.mp ha
  obtain ⟨hname, htidy, hexact⟩ := he.extras a ha (by rw [isExtra, hfurther]; rfl)
  split
  next => exact ⟨hname, .leaf rfl rfl, .leaf rfl trivial⟩
  next => exact ⟨hname, htidy, hexact⟩

theorem Loggable.isField (he : e.Loggable) {f : Text × Json} (hf : f ∈ e.table time message) :
    IsField e time message f := by
  rcases mem_table hf with hf | hf | hf | hf
  · exact isField_of_standard hf
  · exact .extra (he.extra_callEntries hf)
  · exact .extra (he.extra_errorEntries hf)
  · exact .extra (he.extra_extraEntries hf)

theorem IsField.name {f : Text × Json} (hf : IsField e time message f) : f.1.isWellFormed = true := by
  cases hf with
  | time hname => exact hname
  | message hname => exact hname
  | placed hname _ => exact hname
  | extra hextra => exact hextra.1

theorem IsField.readable (he : e.Loggable) {f : Text × Json} (hf : IsField e time message f) :
    Json.Everywhere Json.Distinct f.2 ∧ Json.Everywhere Json.Exact f.2 := by
  cases hf with
  | time => exact ⟨.leaf rfl trivial, .leaf rfl trivial⟩
  | message => exact ⟨.leaf rfl trivial, .leaf rfl trivial⟩
  | placed _ hplaced => exact ⟨(he.plain _ hplaced).distinct, (he.plain _ hplaced).exact⟩
  | extra hextra => exact ⟨hextra.2.1.distinct, hextra.2.2⟩

theorem IsField.rejoined (he : e.Loggable) (htime : time.isWellFormed = true)
    (hmessage : Json.Unsplit message)
    (hplaced : ∀ name ∈ LogEvent.placed, ∀ t, e.get name = .str t → Json.Unsplit t) {f : Text × Json}
    (hf : IsField e time message f) : f.2.rejoined = f.2 := by
  cases hf with
  | time => rw [Json.rejoined, Json.joined_of_scalars htime]
  | message => rw [Json.rejoined, Json.joined_of_unsplit hmessage]
  | placed _ hname => exact (he.plain _ hname).rejoined (hplaced _ hname)
  | extra hextra => exact Json.rejoined_of_tidy hextra.2.1

theorem Loggable.parse_table (he : e.Loggable) (time message : Text) :
    (Json.obj (e.table time message)).render.isPlain = true ∧
      Json.parse (Json.obj (e.table time message)).render =
        .ok (.obj ((e.table time message).mapValues Json.rejoined)) := by
  have hexact : Json.Everywhere Json.Exact (.obj (e.table time message)) :=
    .obj trivial fun f hf => ((he.isField hf).readable he).2
  have hnames : Json.rejoinedFields (e.table time message) =
      (e.table time message).mapValues Json.rejoined :=
    Json.rejoinedFields_of_names fun f hf => (he.isField hf).name
  have hdistinct : Json.Everywhere Json.Distinct (.obj (e.table time message)) := by
    refine .obj ?_ fun f hf => ((he.isField hf).readable he).1
    change (Entries.names (Json.rejoinedFields _)).Nodup
    rw [hnames, Entries.names_mapValues]
    exact nodup_table
  rw [Json.parse_render_rejoined hdistinct hexact, Json.rejoined, hnames]
  exact ⟨Json.isPlain_render hexact, rfl⟩

theorem line_read_back (he : e.Loggable) (hmessage : e.message = .ok message) :
    ∃ fields text, e.fields = .ok fields ∧ fields.get? "message" = some (.str message) ∧
      e.line = .ok text ∧ (∀ r ∈ text, 0x20 ≤ r.code ∧ r.code ≤ 0x7E) ∧
      Json.parse text = .ok (.obj (fields.mapValues Json.rejoined)) ∧
      (Json.Unsplit message → (∀ name ∈ placed, ∀ t, e.get name = .str t → Json.Unsplit t) →
        Json.parse text = .ok (.obj fields)) := by
  obtain ⟨time, htime, hfields⟩ := fields_eq_table he.dated hmessage
  obtain ⟨hplain, hparse⟩ := he.parse_table time message
  refine ⟨_, _, hfields, get?_message, by rw [line, hfields]; rfl, fun r hr => ?_, hparse,
    fun hunsplit hplaced => ?_⟩
  · simpa [Rune.isPlain] using List.all_eq_true.mp hplain r hr
  · have hsame (f) (hf : f ∈ e.table time message) : (f.1, f.2.rejoined) = f :=
      Prod.ext rfl ((he.isField hf).rejoined he htime hunsplit hplaced)
    rw [hparse, Entries.mapValues, List.map_congr_left hsame, List.map_id']

/-- A record whose arguments bring the halves of a surrogate pair together. -/
def paired : LogEvent where
  attributes :=
    [("msg", .str [.half 0x3D, .scalar '%', .scalar 's']), ("args", .arr [.str [.half 0x600]]),
      ("msecs", .int 0)]
  trace := none

theorem paired_loggable : paired.Loggable where
  unraised := rfl
  dated := ⟨0, rfl⟩
  plain name hname := by
    have hnull : ∀ name ∈ placed, paired.get name = .null := by decide
    rw [hnull name hname]
    trivial
  extras a ha hextra := by
    have hnone : ∀ a ∈ paired.attributes, isExtra a.1 = false := by decide
    rw [hnone a ha] at hextra
    cases hextra

theorem paired_not_read_back : paired.Loggable ∧
    paired.message = .ok [.half 0x3D, .half 0x600] ∧
    ∀ fields text, paired.fields = .ok fields → paired.line = .ok text →
      Json.parse text ≠ .ok (.obj fields) := by
  refine ⟨paired_loggable, rfl, fun fields text hfields hline hparse => ?_⟩
  have hread : paired.line.toOption.bind (fun text => (Json.parse text).toOption) ≠
      paired.fields.toOption.map Json.obj := by
    decide +kernel
  refine hread ?_
  rw [hline, hfields]
  exact toOption_eq_some.mpr hparse

/-- A record whose message, logger and extras hold line breaks, quotes and marks. -/
def forged : LogEvent where
  attributes :=
    [("credential", .str "pw\n"), ("note", .obj [("k\n", .int 1)]), ("error", .str "\r"),
      ("invocation", .obj [("connector", .str "c")]), ("connector", .str "\n"),
      ("name", .str "a\nb"), ("msg", .str "one\r\n\"two\" \\ %s"), ("args", .arr [.str "\t"]),
      ("msecs", .int 7), ("lineno", .int 3)]
  trace := none

def forgedText : Text := "one\r\n\"two\" \\ \t"

theorem forged_placed : ∀ name ∈ placed, forged.get name = .null ∨ forged.get name = .int 3 ∨
    forged.get name = .str "a\nb" := by
  decide +kernel

theorem forged_loggable : forged.Loggable where
  unraised := rfl
  dated := ⟨7, rfl⟩
  plain name hname := by
    rcases forged_placed name hname with h | h | h <;> rw [h]
    · trivial
    · change (Text.ofNat 3).length ≤ Numeral.digitLimit
      decide
    · trivial
  extras a ha hextra := by
    have hone : Json.Exact (.int 1) := by
      change (Text.ofNat 1).length ≤ Numeral.digitLimit
      decide
    have htext (name t : Text) (hname : name.isWellFormed = true) (ht : t.isWellFormed = true) :
        Extra (name, .str t) := ⟨hname, .leaf rfl ht, .leaf rfl trivial⟩
    have hnote : Extra ("note", .obj [("k\n", .int 1)]) :=
      ⟨rfl, .obj ⟨by decide, by decide⟩ (List.forall_mem_singleton.mpr (.leaf rfl trivial)),
        .obj trivial (List.forall_mem_singleton.mpr (.leaf rfl hone))⟩
    have hcall : Extra ("invocation", .obj [("connector", .str "c")]) :=
      ⟨rfl, .obj ⟨by decide, by decide⟩ (List.forall_mem_singleton.mpr (.leaf rfl rfl)),
        .obj trivial (List.forall_mem_singleton.mpr (.leaf rfl trivial))⟩
    simp only [forged, List.mem_cons, List.not_mem_nil, or_false] at ha
    rcases ha with rfl | rfl | rfl | rfl | rfl | rfl | rfl | rfl | rfl | rfl
    · exact htext "credential" "pw\n" rfl rfl
    · exact hnote
    · exact htext "error" "\r" rfl rfl
    · exact hcall
    · exact htext "connector" "\n" rfl rfl
    all_goals exact absurd hextra (by decide)

theorem forged_read_back : forged.Loggable ∧ forged.message = .ok forgedText ∧
    ∃ fields text, forged.fields = .ok fields ∧ fields.get? "message" = some (.str forgedText) ∧
      forged.line = .ok text ∧ (∀ r ∈ text, 0x20 ≤ r.code ∧ r.code ≤ 0x7E) ∧
      Json.parse text = .ok (.obj fields) := by
  have hmessage : forged.message = .ok forgedText := by rfl
  obtain ⟨fields, text, hfields, htold, hline, hplain, -, hparse⟩ :=
    line_read_back forged_loggable hmessage
  refine ⟨forged_loggable, hmessage, fields, text, hfields, htold, hline, hplain, hparse ?_ ?_⟩
  · exact Json.unsplit_of_scalars (by decide)
  · intro name hname t ht
    rcases forged_placed name hname with h | h | h <;> rw [h] at ht <;> cases ht
    exact Json.unsplit_of_scalars (by decide)

end LogEvent
end RemoteModel
