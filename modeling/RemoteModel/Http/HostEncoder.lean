import RemoteModel.Text.Rune

/-!
International host names. Their encoder is no part of this library: whatever it is, what it writes is
ASCII, and it may refuse.
-/

namespace RemoteModel

/-- Encodes a single label as it stands, or a whole name whose runes it first brings into one form. -/
class HostEncoder where
  label? : Text → Option Text
  name? : Text → Option Text
  ascii_label : ∀ {label sent}, label? label = some sent → sent.all Rune.isAscii = true
  ascii_name : ∀ {name sent}, name? name = some sent → sent.all Rune.isAscii = true

/-- Where there is no encoder, names outside ASCII are refused. -/
instance (priority := low) HostEncoder.absent : HostEncoder where
  label? _ := none
  name? _ := none
  ascii_label := nofun
  ascii_name := nofun

end RemoteModel
