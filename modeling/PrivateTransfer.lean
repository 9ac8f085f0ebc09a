import PrivateTransfer.Field
import PrivateTransfer.MerkleTree
import PrivateTransfer.RingBuffer
import PrivateTransfer.Runs
import PrivateTransfer.Script
import PrivateTransfer.Circuit
import PrivateTransfer.PublicInputs
import PrivateTransfer.WithdrawClient
import PrivateTransfer.Poseidon2
import PrivateTransfer.Recipient
import PrivateTransfer.PoolProgram
import PrivateTransfer.Accounting
import PrivateTransfer.Authenticity
import PrivateTransfer.Backing
import PrivateTransfer.MerkleProofs
import PrivateTransfer.Base64
import PrivateTransfer.CanonicalLeaves
import PrivateTransfer.ClientHex
import PrivateTransfer.DepositClient
import PrivateTransfer.DepositRace
import PrivateTransfer.NoteText
import PrivateTransfer.Prover
import PrivateTransfer.BackendView
import PrivateTransfer.CommitmentsCache
import PrivateTransfer.FailedAddition
import PrivateTransfer.ListPositions
import PrivateTransfer.Reindexing
import PrivateTransfer.SharedDatabase
import PrivateTransfer.EventDecoding
import PrivateTransfer.NotesStore
import PrivateTransfer.ProofRoutes
import PrivateTransfer.RateLimit
import PrivateTransfer.WitnessFiles
import PrivateTransfer.Acceptance
import PrivateTransfer.Solvency
import PrivateTransfer.ReadRoutes
import PrivateTransfer.Issuance
import PrivateTransfer.Redemption
import PrivateTransfer.SharedRedis
import PrivateTransfer.LimiterClients
import PrivateTransfer.PoolPage
import PrivateTransfer.CacheAge
import PrivateTransfer.UsedNotes
import PrivateTransfer.StoredNotes
