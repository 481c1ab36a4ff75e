import HashTabs.Config
import HashTabs.Html

/-! How the parts of the page look, given its configuration, the active tab and the parts inside
them. -/

namespace HashTabs.View

open Html

/-- The header: the title of the page. -/
def topHeader (c : Config) : Html :=
  element .div [.classes "top-header"] [
    element .div [.classes "top-header__brand"] [
      element .span [.classes "top-header__title"] [text c.appTitle]]]

/-- The button of a tab in the tab bar; the active tab's stands out. -/
def tabButton (active t : Tab) : Html :=
  button (if active = t then .primary else .subtle) t t.label

/-- The tab bar: a button for each tab. -/
def tabBar (active : Tab) : Html :=
  element .nav [.role "tablist", .classes "tab-bar"] (Tab.all.map (tabButton active))

/-- The view behind the first tab: an invitation to go on to the second. -/
def connect : Html :=
  element .section [.classes "view view--connect"] [
    element .heading [] [text "Connect"],
    element .paragraph []
      [text "Sign in to your cloud account to discover devices on the local network."],
    button .primary .devices "Continue to devices"]

/-- The view behind the second tab. -/
def devices : Html :=
  element .section [.classes "view view--devices"] [
    element .heading [] [text "Devices"],
    element .paragraph [.classes "view__empty"] [text "No devices discovered yet."]]

/-- The view behind the third tab: the configuration, and the fragment of the active tab. -/
def settings (c : Config) (active : Tab) : Html :=
  element .section [.classes "view view--settings"] [
    element .heading [] [text "Settings"],
    element .list [.classes "settings-list"] [
      element .term [] [text "Application title"],
      element .description [] [text c.appTitle],
      element .term [] [text "Log level"],
      element .description [] [text c.logLevel],
      element .term [] [text "Active tab fragment"],
      element .description [] [text active.fragment]],
    element .paragraph [.classes "settings-hint"]
      [text "Override with query parameters, e.g. ?log_level=debug&app_title=Bench"]]

/-- The middle of the page, around the view behind the active tab. -/
def center (active : Tab) (view : Html) : Html :=
  element .div
    [.zone "center", .tabKey active, .classes "app-tabs", .style "flex: 1; overflow: auto;;"] [view]

/-- The whole page, around its header, its tab bar and its middle. -/
def shell (header bar middle : Html) : Html :=
  element .div [.classes "app-layout"] [header, bar, element .div [.classes "app-main"] [middle]]

/-- The title of the document. -/
def documentTitle (c : Config) (active : Tab) : String :=
  c.appTitle ++ " · " ++ active.label

end HashTabs.View
