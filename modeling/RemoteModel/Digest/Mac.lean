import RemoteModel.Digest.Sha256

/-!
Message authentication with a key: the digest of the message is taken under the key, and the digest
of that under the key again.
-/

namespace RemoteModel

namespace Mac

def blockSize : Nat := 64

/-- The key filled with zeros to a block; a key that is longer than a block is digested before. -/
def blockKey (key : Bytes) : Bytes :=
  let key := if blockSize < key.length then Sha256.hash key else key
  key ++ List.replicate (blockSize - key.length) 0

def compute (key message : Bytes) : Bytes :=
  let key := blockKey key
  Sha256.hash (key.map (· ^^^ 0x5c) ++ Sha256.hash (key.map (· ^^^ 0x36) ++ message))

end Mac

end RemoteModel
