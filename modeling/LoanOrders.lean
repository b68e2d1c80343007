import LoanOrders.LogLevel
import LoanOrders.Service
import LoanOrders.Proofs.Checked
import LoanOrders.Proofs.Classification
import LoanOrders.Proofs.Conversion
import LoanOrders.Proofs.Creation
import LoanOrders.Proofs.Crossing
import LoanOrders.Proofs.Held
import LoanOrders.Proofs.Maximal
import LoanOrders.Proofs.Measure
import LoanOrders.Proofs.OtherSlot
import LoanOrders.Proofs.Reloaded
import LoanOrders.Proofs.Resave
import LoanOrders.Proofs.Safety
import LoanOrders.Proofs.Selection
import LoanOrders.Proofs.Session
import LoanOrders.Proofs.Settings
import LoanOrders.Proofs.TokenPrice
import LoanOrders.Proofs.TriggerOrder
import LoanOrders.Proofs.Weighted
import LoanOrders.Proofs.Worth
