import FlintDB.Marshal.Text
import FlintDB.Marshal.KeyArray
import FlintDB.Marshal.Callback
import FlintDB.Marshal.Utf8
import FlintDB.Ownership.World
import FlintDB.Ownership.Binding
import FlintDB.Ownership.Ledger
import FlintDB.Ownership.Holders
import FlintDB.Ownership.Refinement
import FlintDB.Ownership.Build
import FlintDB.Ownership.Safety
import FlintDB.Ownership.Calls
import FlintDB.Ownership.Liveness
import FlintDB.Tutorial.Script
import FlintDB.Tutorial.Main
