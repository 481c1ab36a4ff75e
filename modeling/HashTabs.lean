import HashTabs.Json.Reader
import HashTabs.Proofs.Location
import HashTabs.Proofs.Tab.Agreement
import HashTabs.Proofs.Tab.Truncation
import HashTabs.Proofs.Session.Echo
import HashTabs.Proofs.Session.Isolation
import HashTabs.Proofs.Session.Notifications
import HashTabs.Proofs.Session.Idle
import HashTabs.Proofs.Session.OwnNavigation
import HashTabs.Proofs.Session.Settings

/-! A page with tabs, of which the active one stands in the hash of the location.

`HashTabs.Tab` has the tabs and the ways in which one is read and written, `HashTabs.Location` and
`HashTabs.Navigation` keep the hash and the active tab in step, `HashTabs.Config` is read off the query
of a page, and `HashTabs.Component` draws what is seen. `HashTabs.Session` puts them together: it takes
one step at a time, and `HashTabs.Startup` is how a page begins. What is proved about each of them is
under `HashTabs.Proofs`. -/
