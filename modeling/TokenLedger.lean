import TokenLedger.Text.Utf8
import TokenLedger.Text.Units
import TokenLedger.Text.Blank
import TokenLedger.Text.Lowercase
import TokenLedger.Text.Base64
import TokenLedger.Text.IntegerLiteral
import TokenLedger.Json.Printer
import TokenLedger.Json.Misread
import TokenLedger.Json.Parser
import TokenLedger.Json.Shape
import TokenLedger.Rlp.Decoder
import TokenLedger.Fault
import TokenLedger.Wire.Schema
import TokenLedger.Wire.Outline
import TokenLedger.Message.Catalog
import TokenLedger.Store.RecordMap
import TokenLedger.Store.Memory
import TokenLedger.Coin
import TokenLedger.Address
import TokenLedger.Config.Factory
import TokenLedger.Config.Settings
import TokenLedger.Bank
import TokenLedger.Bridge
import TokenLedger.Asset.CustomQuery
import TokenLedger.Factory.Generic
import TokenLedger.Factory.Coreum
import TokenLedger.Chain
import TokenLedger.Chain.ScriptedHost
import TokenLedger.Proofs.Json.Numerals
import TokenLedger.Proofs.Json.Text
import TokenLedger.Proofs.Utf8
import TokenLedger.Proofs.Message
import TokenLedger.Proofs.Store.Key
import TokenLedger.Proofs.Store.Map
import TokenLedger.Proofs.Store.RecordMap
import TokenLedger.Proofs.Bank.Ledger
import TokenLedger.Proofs.Asset.Record
import TokenLedger.Proofs.Asset.Surfaces
import TokenLedger.Proofs.Factory.Rules
import TokenLedger.Proofs.Except
import TokenLedger.Proofs.Factory.Coreum
import TokenLedger.Proofs.Chain.Run
import TokenLedger.Proofs.Chain.Debits
import TokenLedger.Proofs.Chain.Inflation
import TokenLedger.Proofs.Factory.Nfts
import TokenLedger.Proofs.Factory.Identifiers
import TokenLedger.Proofs.Factory.OwnRecords
import TokenLedger.Proofs.Chain.Classes
import TokenLedger.Proofs.Chain.Ownership
import TokenLedger.Proofs.Chain.Identifiers
import TokenLedger.Proofs.Chain.Minting
import TokenLedger.Proofs.Chain.Registry
import TokenLedger.Proofs.Chain.Books
import TokenLedger.Proofs.Chain.BridgedBank
import TokenLedger.Proofs.Rlp
import TokenLedger.Proofs.Chain.CreationFee
import TokenLedger.Proofs.Chain.SignedAmounts
import TokenLedger.Proofs.Bank.Totals
import TokenLedger.Proofs.Store.Tables
import TokenLedger.Proofs.Chain.Reports
import TokenLedger.Proofs.Chain.CoinLists
import TokenLedger.Proofs.Chain.Creators
import TokenLedger.Proofs.Chain.Commuting
import TokenLedger.Proofs.Chain.Listings
import TokenLedger.Proofs.Chain.Events
import TokenLedger.Proofs.Chain.Issuance
import TokenLedger.Proofs.Coin.Grammar
import TokenLedger.Proofs.Coin.Split
import TokenLedger.Proofs.Message.Editions
import TokenLedger.Proofs.Message.Framing
import TokenLedger.Proofs.Asset.Envelopes
import TokenLedger.Proofs.Bank.Seeding
import TokenLedger.Proofs.Chain.ContractFailures
import TokenLedger.Proofs.Chain.Seeding
import TokenLedger.Proofs.Store.Memory
import TokenLedger.Proofs.Chain.Rollback
import TokenLedger.Proofs.Store.Pairs
import TokenLedger.Proofs.Store.Scan
import TokenLedger.Proofs.Records
import TokenLedger.Proofs.Wire.Integers
import TokenLedger.Proofs.Wire.Outline
