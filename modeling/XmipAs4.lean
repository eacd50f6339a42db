import XmipAs4.Delivery.Run
import XmipAs4.Reference.Bench
import XmipAs4.Exchange.RoundTrip
import XmipAs4.Exchange.RootPart
import XmipAs4.Exchange.Payload
import XmipAs4.Exchange.Signals
import XmipAs4.Exchange.Gates
import XmipAs4.Exchange.References
import XmipAs4.Exchange.Acceptance
import XmipAs4.Exchange.FarEnd
import XmipAs4.Exchange.Receipts
import XmipAs4.Exchange.Agreement
import XmipAs4.Exchange.OneDelivery
import XmipAs4.Exchange.Keyed
import XmipAs4.Exchange.Clones
import XmipAs4.Exchange.TwoWays
import XmipAs4.Wire.Foreign
import XmipAs4.Exchange.Copy
import XmipAs4.Exchange.Signing
import XmipAs4.Exchange.Origin
import XmipAs4.Exchange.Hollow
import XmipAs4.Exchange.Naming
import XmipAs4.Exchange.Loopback
import XmipAs4.Delivery.Channel
import XmipAs4.Exchange.Confirmed
import XmipAs4.Exchange.Forgetting
import XmipAs4.Exchange.Configured
import XmipAs4.Exchange.Progress
import XmipAs4.Exchange.Layout
import XmipAs4.Delivery.Commute
import XmipAs4.Exchange.Interleaving
import XmipAs4.Exchange.Bodies
import XmipAs4.Exchange.Accounting
import XmipAs4.Exchange.Unpacking
import XmipAs4.Delivery.Serial
import XmipAs4.Exchange.Cycles
