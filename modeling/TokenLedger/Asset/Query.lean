import TokenLedger.Asset.View
import TokenLedger.Message.Query

/-!
# What queries read of assets

What the records tell about tokens, classes and NFTs.  Two surfaces read it and write answers of
their own: the factory on its query paths, and the custom module for queries in JSON.
-/

namespace TokenLedger.Asset

/-- The NFT of a class and an id. -/
def loadNft (s : Store) (classId id : String) : Except Fault StoredNft := do
  match ← nfts.load? s (classId, id) with
  | some n => .ok n
  | none => .error (.notFound (.nft classId id))

/-- Whether a value passes a filter; no filter lets everything pass. -/
def passes (filter : Option String) (value : String) : Bool := filter.all (· == value)

/-- The NFTs of a class, of an owner or of both. -/
def listNfts (s : Store) (classId owner : Option String) : Except Fault (List StoredNft) := do
  let all ← nfts.entries s .ascending
  .ok ((all.map (·.2)).filter fun n => passes classId n.classId && passes owner n.owner)

/-- The class of an id. -/
def loadClass (s : Store) (id : String) : Except Fault StoredClass := do
  match ← classes.load? s id with
  | some c => .ok c
  | none => .error (.notFound (.nftClass id))

/-- The filter that a text stands for: the empty one lets everything pass. -/
def filterOf (s : String) : Option String := if s = "" then none else some s

/-- The classes of an issuer with their ids. -/
def listClasses (s : Store) (issuer : Option String) :
    Except Fault (List (String × StoredClass)) := do
  let all ← classes.entries s .ascending
  .ok (all.filter fun e => passes issuer e.2.issuer)

/-- The token of a denom as it is shown; one denom is the native token unless it was issued. -/
def showToken (nativeDenom : String) (s : Store) (denom : String) : Except Fault Json := do
  match ← issuedTokens.load? s denom with
  | some t => .ok (t.view denom)
  | none =>
    if denom = nativeDenom then .ok (nativeView denom) else .error (.notFound (.token denom))

/-- The tokens of an issuer as they are shown. -/
def showTokens (s : Store) (issuer : Option String) : Except Fault (List Json) := do
  let all ← issuedTokens.entries s .ascending
  .ok ((all.filter fun e => passes issuer e.2.issuer).map fun (denom, t) => t.view denom)

end TokenLedger.Asset
