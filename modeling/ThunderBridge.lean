import ThunderBridge.Lib.Calls
import ThunderBridge.Lib.Traces
import ThunderBridge.Lib.Ranges
import ThunderBridge.Lib.Bisect
import ThunderBridge.Lib.Once
import ThunderBridge.Lib.PackedCounter
import ThunderBridge.Lib.SlotArray
import ThunderBridge.Lib.Poll
import ThunderBridge.Lib.Bytes
import ThunderBridge.Lib.Digest
import ThunderBridge.Lib.Packed
import ThunderBridge.Lib.Hex
import ThunderBridge.Lib.Messages
import ThunderBridge.Lib.Vault
import ThunderBridge.Lib.Books
import ThunderBridge.Lib.Accounts
import ThunderBridge.Lib.Broker
import ThunderBridge.Contracts.Evm
import ThunderBridge.Contracts.BridgeValidators
import ThunderBridge.Contracts.ValidatorSet
import ThunderBridge.Contracts.Message
import ThunderBridge.Contracts.BasicBridge
import ThunderBridge.Contracts.Erc20
import ThunderBridge.Contracts.MinterBurnerProxy
import ThunderBridge.Contracts.ForeignBridge.State
import ThunderBridge.Contracts.ForeignBridge.Relay
import ThunderBridge.Contracts.ForeignBridge.Delivery
import ThunderBridge.Contracts.ForeignBridge.NativeToken
import ThunderBridge.Contracts.ForeignBridge.Erc677
import ThunderBridge.Contracts.HomeBridge.State
import ThunderBridge.Contracts.HomeBridge.Affirmation
import ThunderBridge.Contracts.HomeBridge.Withdrawal
import ThunderBridge.Contracts.HomeBridge.Run
import ThunderBridge.Contracts.HomeBridge.Outline
import ThunderBridge.Contracts.HomeBridge.Effects
import ThunderBridge.Contracts.HomeBridge.Threshold
import ThunderBridge.Contracts.HomeBridge.Overdraw
import ThunderBridge.Contracts.HomeBridge.OverdrawLedger
import ThunderBridge.Contracts.HomeBridge.Settlement
import ThunderBridge.Contracts.FeeSplit
import ThunderBridge.Contracts.ForeignBridge.Custody
import ThunderBridge.Contracts.ForeignBridge.NativeCustody
import ThunderBridge.Contracts.HomeBridge.FeeArithmetic
import ThunderBridge.Contracts.HomeBridge.Revocation
import ThunderBridge.Contracts.HomeBridge.Collection
import ThunderBridge.Contracts.HomeBridge.Inner
import ThunderBridge.Contracts.HomeBridge.Custody
import ThunderBridge.Contracts.HomeBridge.Polling
import ThunderBridge.Contracts.HomeBridge.Liveness
import ThunderBridge.Contracts.HomeBridge.DailyLimits
import ThunderBridge.Contracts.BridgeToken
import ThunderBridge.Validator.Events
import ThunderBridge.Validator.CollectedSignatures
import ThunderBridge.Validator.MessageCodec
import ThunderBridge.Validator.RecipientOverride
import ThunderBridge.Validator.Types
import ThunderBridge.Validator.Watcher
import ThunderBridge.Validator.AmqpClient
import ThunderBridge.Validator.HttpRetryProvider
import ThunderBridge.Validator.BatchRequest
import ThunderBridge.Validator.WatcherWeb3
import ThunderBridge.Validator.Scans
import ThunderBridge.Validator.OldWatcher
import ThunderBridge.Validator.Pipeline
import ThunderBridge.Validator.NonceCache
import ThunderBridge.Validator.Conservation
import ThunderBridge.Validator.NonceGap
import ThunderBridge.Validator.GasPrice
import ThunderBridge.Solvency.HomeSupply
import ThunderBridge.Solvency.HonestValidators
import ThunderBridge.Solvency.ForeignReserve
import ThunderBridge.Solvency.CrossChain
import ThunderBridge.Contracts.HomeBridge.Genuine
import ThunderBridge.Solvency.Crediting
import ThunderBridge.Solvency.Signing
import ThunderBridge.Solvency.Relayable
import ThunderBridge.Solvency.RelayEstimate
import ThunderBridge.Solvency.BridgeSupply
import ThunderBridge.Solvency.TokenDeposits
import ThunderBridge.Solvency.ReceiverFunding
import ThunderBridge.Solvency.Custody
import ThunderBridge.Solvency.HomeReserve
import ThunderBridge.Solvency.MintedSupply
import ThunderBridge.Solvency.LockAndMint
import ThunderBridge.Monitor.Logs
import ThunderBridge.Monitor.EventStats
import ThunderBridge.Monitor.Validators
import ThunderBridge.Monitor.Balances
import ThunderBridge.Contracts.EternalStorage.Fields
import ThunderBridge.Contracts.EternalStorage.Accessors
import ThunderBridge.Contracts.EternalStorage.Records
import ThunderBridge.Contracts.EternalStorage.ValidatorStorage
import ThunderBridge.Contracts.EternalStorage.Settings
import ThunderBridge.Contracts.Proxy
import ThunderBridge.Contracts.Upgrades
import ThunderBridge.Contracts.HomeBridge.Completions
import ThunderBridge.Ui.TxStore
import ThunderBridge.Ui.BridgeForm
