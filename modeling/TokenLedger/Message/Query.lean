import TokenLedger.Message.Basic

/-!
# Query requests

What the query paths of the bank, the contracts, the asset modules and the NFT module are sent.
-/

namespace TokenLedger

open Wire

/-! ### Bank and contracts -/

/-- Asks for all balances of an account. -/
structure AllBalancesRequest where
  address : String
  pagination : Option PageRequest
deriving DecidableEq, Repr, Inhabited

/-- Asks for one balance of an account. -/
structure BalanceRequest where
  address : String
  denom : String
deriving DecidableEq, Repr, Inhabited

/-- Asks how much of a denom there is. -/
structure SupplyOfRequest where
  denom : String
deriving DecidableEq, Repr, Inhabited

/-- Asks a contract. -/
structure SmartContractStateRequest where
  address : String
  queryData : Bytes
deriving DecidableEq, Repr, Inhabited

/-- Asks about a contract. -/
structure ContractInfoRequest where
  address : String
deriving DecidableEq, Repr, Inhabited

/-- The query path of `AllBalancesRequest`. -/
def AllBalancesRequest.path : String := "/cosmos.bank.v1beta1.Query/AllBalances"

/-- The wire form of `AllBalancesRequest`. -/
def AllBalancesRequest.codec : Codec AllBalancesRequest where
  typeName := "QueryAllBalancesRequest"
  schema :=
    { Row := String × Option PageRequest × Unit
      layout :=
        .cons (.text "address") <| .cons (PageRequest.schema.optional "pagination") .nil
      toRow := fun m => (m.address, m.pagination, ())
      ofRow := fun (address, pagination, ()) => { address, pagination } }

/-- The query path of `BalanceRequest`. -/
def BalanceRequest.path : String := "/cosmos.bank.v1beta1.Query/Balance"

/-- The wire form of `BalanceRequest`. -/
def BalanceRequest.codec : Codec BalanceRequest where
  typeName := "QueryBalanceRequest"
  schema :=
    { Row := String × String × Unit
      layout := .cons (.text "address") <| .cons (.text "denom") .nil
      toRow := fun m => (m.address, m.denom, ())
      ofRow := fun (address, denom, ()) => { address, denom } }

/-- The query path of `SupplyOfRequest`. -/
def SupplyOfRequest.path : String := "/cosmos.bank.v1beta1.Query/SupplyOf"

/-- The wire form of `SupplyOfRequest`. -/
def SupplyOfRequest.codec : Codec SupplyOfRequest where
  typeName := "QuerySupplyOfRequest"
  schema :=
    { Row := String × Unit
      layout := .cons (.text "denom") .nil
      toRow := fun m => (m.denom, ())
      ofRow := fun (denom, ()) => { denom } }

/-- The query path of `SmartContractStateRequest`. -/
def SmartContractStateRequest.path : String := "/cosmwasm.wasm.v1.Query/SmartContractState"

/-- The wire form of `SmartContractStateRequest`. -/
def SmartContractStateRequest.codec : Codec SmartContractStateRequest where
  typeName := "QuerySmartContractStateRequest"
  schema :=
    { Row := String × Bytes × Unit
      layout := .cons (.text "address") <| .cons (.bytes "query_data") .nil
      toRow := fun m => (m.address, m.queryData, ())
      ofRow := fun (address, queryData, ()) => { address, queryData } }

/-- The query path of `ContractInfoRequest`. -/
def ContractInfoRequest.path : String := "/cosmwasm.wasm.v1.Query/ContractInfo"

/-- The wire form of `ContractInfoRequest`. -/
def ContractInfoRequest.codec : Codec ContractInfoRequest where
  typeName := "QueryContractInfoRequest"
  schema :=
    { Row := String × Unit
      layout := .cons (.text "address") .nil
      toRow := fun m => (m.address, ())
      ofRow := fun (address, ()) => { address } }

/-! ### Assets and NFTs -/

/-- Asks for a fungible token. -/
structure TokenRequest where
  denom : String
deriving DecidableEq, Repr, Inhabited

/-- Asks for the fungible tokens of an issuer. -/
structure TokensRequest where
  pagination : Option PageRequest
  issuer : String
deriving DecidableEq, Repr, Inhabited

/-- Asks for a class of NFTs. -/
structure ClassRequest where
  id : String
deriving DecidableEq, Repr, Inhabited

/-- Asks for the classes of an issuer. -/
structure ClassesRequest where
  pagination : Option PageRequest
  issuer : String
deriving DecidableEq, Repr, Inhabited

/-- Asks for an NFT. -/
structure NftRequest where
  classId : String
  id : String
deriving DecidableEq, Repr, Inhabited

/-- Asks for the NFTs of a class, of an owner or of both. -/
structure NftsRequest where
  classId : String
  owner : String
  pagination : Option PageRequest
deriving DecidableEq, Repr, Inhabited

/-- Asks for the owner of an NFT. -/
structure OwnerRequest where
  classId : String
  id : String
deriving DecidableEq, Repr, Inhabited

/-- The query path of `TokenRequest`. -/
def TokenRequest.path : String := "/coreum.asset.ft.v1.Query/Token"

/-- The wire form of `TokenRequest`. -/
def TokenRequest.codec : Codec TokenRequest where
  typeName := "QueryTokenRequest"
  schema :=
    { Row := String × Unit
      layout := .cons (.text "denom") .nil
      toRow := fun m => (m.denom, ())
      ofRow := fun (denom, ()) => { denom } }

/-- The query path of `TokensRequest`. -/
def TokensRequest.path : String := "/coreum.asset.ft.v1.Query/Tokens"

/-- The wire form of `TokensRequest`. -/
def TokensRequest.codec : Codec TokensRequest where
  typeName := "QueryTokensRequest"
  schema :=
    { Row := Option PageRequest × String × Unit
      layout :=
        .cons (PageRequest.schema.optional "pagination") <| .cons (.text "issuer") .nil
      toRow := fun m => (m.pagination, m.issuer, ())
      ofRow := fun (pagination, issuer, ()) => { pagination, issuer } }

/-- The query path of `ClassRequest`. -/
def ClassRequest.path : String := "/coreum.asset.nft.v1.Query/Class"

/-- The wire form of `ClassRequest`. -/
def ClassRequest.codec : Codec ClassRequest where
  typeName := "QueryClassRequest"
  schema :=
    { Row := String × Unit
      layout := .cons (.text "id") .nil
      toRow := fun m => (m.id, ())
      ofRow := fun (id, ()) => { id } }

/-- The query path of `ClassesRequest`. -/
def ClassesRequest.path : String := "/coreum.asset.nft.v1.Query/Classes"

/-- The wire form of `ClassesRequest`. -/
def ClassesRequest.codec : Codec ClassesRequest where
  typeName := "QueryClassesRequest"
  schema :=
    { Row := Option PageRequest × String × Unit
      layout :=
        .cons (PageRequest.schema.optional "pagination") <| .cons (.text "issuer") .nil
      toRow := fun m => (m.pagination, m.issuer, ())
      ofRow := fun (pagination, issuer, ()) => { pagination, issuer } }

/-- The query path of `NftRequest`. -/
def NftRequest.path : String := "/cosmos.nft.v1beta1.Query/NFT"

/-- The wire form of `NftRequest`. -/
def NftRequest.codec : Codec NftRequest where
  typeName := "QueryNftRequest"
  schema :=
    { Row := String × String × Unit
      layout := .cons (.text "class_id") <| .cons (.text "id") .nil
      toRow := fun m => (m.classId, m.id, ())
      ofRow := fun (classId, id, ()) => { classId, id } }

/-- The query path of `NftsRequest`. -/
def NftsRequest.path : String := "/cosmos.nft.v1beta1.Query/NFTs"

/-- The wire form of `NftsRequest`. -/
def NftsRequest.codec : Codec NftsRequest where
  typeName := "QueryNftsRequest"
  schema :=
    { Row := String × String × Option PageRequest × Unit
      layout :=
        .cons (.text "class_id") <| .cons (.text "owner") <|
        .cons (PageRequest.schema.optional "pagination") .nil
      toRow := fun m => (m.classId, m.owner, m.pagination, ())
      ofRow := fun (classId, owner, pagination, ()) => { classId, owner, pagination } }

/-- The query path of `OwnerRequest`. -/
def OwnerRequest.path : String := "/cosmos.nft.v1beta1.Query/Owner"

/-- The wire form of `OwnerRequest`. -/
def OwnerRequest.codec : Codec OwnerRequest where
  typeName := "QueryOwnerRequest"
  schema :=
    { Row := String × String × Unit
      layout := .cons (.text "class_id") <| .cons (.text "id") .nil
      toRow := fun m => (m.classId, m.id, ())
      ofRow := fun (classId, id, ()) => { classId, id } }

end TokenLedger
